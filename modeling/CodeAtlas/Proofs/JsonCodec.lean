import CodeAtlas.Proofs.JsonText
import CodeAtlas.Proofs.Statistics
import Mathlib.Data.List.Nodup

/-!
# Writing and reading records as JSON

Facts and snapshots are written as JSON values and read back unchanged. Each record has one lemma,
`lossless`, which says that its reader undoes its writer, that its written form is never `null`, so
that an absent value is told from it, and that no object in it repeats a key. The records of a file
and of a graph are then put together from these. A symbol carries the fields of its profile beside
its own, which works because the two share no key.
-/

namespace CodeAtlas

namespace Json

/-- No object in a value repeats a key. -/
inductive KeysDistinct : Json → Prop where
  | null : KeysDistinct null
  | bool (b : Bool) : KeysDistinct (bool b)
  | nat (n : Nat) : KeysDistinct (nat n)
  | str (s : String) : KeysDistinct (str s)
  | arr {items : List Json} (hitems : ∀ item ∈ items, KeysDistinct item) : KeysDistinct (arr items)
  | obj {fields : List (String × Json)} (hkeys : (fields.map Prod.fst).Nodup)
      (hvalues : ∀ field ∈ fields, KeysDistinct field.2) : KeysDistinct (obj fields)

attribute [simp] KeysDistinct.null KeysDistinct.bool KeysDistinct.nat KeysDistinct.str

/-- An array repeats a key when one of its items does. -/
@[simp]
theorem keysDistinct_arr {items : List Json} :
    (arr items).KeysDistinct ↔ ∀ item ∈ items, item.KeysDistinct := by
  constructor
  · rintro ⟨⟩
    assumption
  · exact .arr

/-- An object repeats a key itself, or one of its values does. -/
@[simp]
theorem keysDistinct_obj {fields : List (String × Json)} :
    (obj fields).KeysDistinct ↔
      (fields.map Prod.fst).Nodup ∧ ∀ field ∈ fields, field.2.KeysDistinct := by
  constructor
  · rintro ⟨⟩
    exact ⟨‹_›, ‹_›⟩
  · exact fun h => .obj h.1 h.2

/-- The first member of an object is found, if no other has its name. -/
@[simp]
theorem member?_cons_self {name : String} {fields : List (String × Json)}
    (hother : name ∉ fields.map Prod.fst) (v : Json) :
    (obj ((name, v) :: fields)).member? name = some (some v) := by
  have hnone : fields.filter (·.1 == name) = [] := by
    refine List.filter_eq_nil_iff.mpr fun field hfield hsame => hother ?_
    exact List.mem_map.mpr ⟨field, hfield, beq_iff_eq.mp hsame⟩
  simp [member?, hnone]

/-- Members with other names are passed over. -/
@[simp]
theorem member?_cons_of_ne {name key : String} (hne : name ≠ key) (v : Json)
    (fields : List (String × Json)) :
    (obj ((key, v) :: fields)).member? name = (obj fields).member? name := by
  rw [member?, member?, List.filter_cons_of_neg (by simpa using hne.symm)]

/-- A member is looked for behind members with other names. -/
theorem member?_append_of_notMem {name : String} {fields : List (String × Json)}
    (hname : name ∉ fields.map Prod.fst) (more : List (String × Json)) :
    (obj (fields ++ more)).member? name = (obj more).member? name := by
  induction fields with
  | nil => rfl
  | cons field fields ih =>
    rw [List.map_cons, List.mem_cons, not_or] at hname
    rw [List.cons_append, member?_cons_of_ne hname.1, ih hname.2]

end Json

/-- What can be read back is written differently for different values. -/
theorem injective_of_reads {α β : Type} {write : α → β} {read : β → Option α}
    (hreads : ∀ a, read (write a) = some a) : Function.Injective write := by
  intro a b hwrite
  have hread := congrArg read hwrite
  rw [hreads, hreads] at hread
  exact Option.some.inj hread

/-- What is written is read back, is not the absent value and repeats no key. -/
structure Lossless {α : Type} (write : α → Json) (read : Json → Option α) : Prop where
  reads : ∀ a, read (write a) = some a
  present : ∀ a, write a ≠ .null
  distinct : ∀ a, (write a).KeysDistinct

namespace Lossless

variable {α : Type} {write : α → Json} {read : Json → Option α}

/-- A value that may be absent is read back. -/
theorem reads_option (h : Lossless write read) (o : Option α) :
    Json.option? read (Json.ofOption write o) = some o := by
  cases o with
  | none => rfl
  | some a =>
    have hpresent := h.present a
    have hreads := h.reads a
    rw [Json.ofOption]
    unfold Json.option?
    split
    · contradiction
    · rw [hreads, Option.map_some]

/-- A value that may be absent repeats no key. -/
theorem distinct_option (h : Lossless write read) (o : Option α) :
    (Json.ofOption write o).KeysDistinct := by
  cases o with
  | none => exact .null
  | some a => exact h.distinct a

/-- A list is written item by item. -/
theorem list (h : Lossless write read) :
    Lossless (fun as => .arr (as.map write)) (Json.list? read) where
  reads as := by
    rw [Json.list?, Json.items?, Option.bind_some]
    induction as with
    | nil => rfl
    | cons a as ih => rw [List.map_cons, List.mapM_cons, h.reads, ih]; rfl
  present _ := nofun
  distinct as := by
    apply Json.KeysDistinct.arr
    intro item hitem
    obtain ⟨a, _, rfl⟩ := List.mem_map.mp hitem
    exact h.distinct a

/-- Different values are written differently. -/
theorem injective (h : Lossless write read) : Function.Injective write :=
  injective_of_reads h.reads

/-- Texts are written as strings. -/
theorem ofText : Lossless Json.str Json.text? where
  reads _ := rfl
  present _ := nofun
  distinct := .str

/-- Natural numbers are written as numbers. -/
theorem ofNat : Lossless Json.nat Json.nat? where
  reads _ := rfl
  present _ := nofun
  distinct := .nat

end Lossless

section Facts

/-- Extents come back. -/
theorem Extent.lossless : Lossless toJson ofJson? where
  reads e := by simp [ofJson?, toJson, Json.required?, Json.nat?]
  present _ := nofun
  distinct e := by simp [toJson]

/-- Languages come back from their tags. -/
theorem Language.lossless : Lossless toJson ofJson? where
  reads lang := by cases lang <;> rfl
  present _ := nofun
  distinct _ := .str _

/-- Kinds of symbols come back from their words. -/
theorem SymbolKind.lossless : Lossless toJson ofJson? where
  reads kind := by cases kind <;> rfl
  present _ := nofun
  distinct _ := .str _

/-- Visibilities come back from their words. -/
theorem Visibility.lossless : Lossless toJson ofJson? where
  reads v := by cases v <;> rfl
  present _ := nofun
  distinct _ := .str _

/-- A kind of call is found by its word. -/
theorem CallKind.ofWord?_word (kind : CallKind) : ofWord? kind.word = some kind := by
  cases kind <;> rfl

/-- Kinds of calls come back from their words. -/
theorem CallKind.lossless : Lossless toJson ofJson? where
  reads kind := ofWord?_word kind
  present _ := nofun
  distinct _ := .str _

/-- Decorators come back. -/
theorem Decorator.lossless : Lossless toJson ofJson? where
  reads d := by simp [ofJson?, toJson, Json.required?, Json.text?, Json.bool?]
  present _ := nofun
  distinct d := by simp [toJson]

/-- Parameters come back. -/
theorem Parameter.lossless : Lossless toJson ofJson? where
  reads p := by simp [ofJson?, toJson, Json.required?, Json.text?, Json.bool?]
  present _ := nofun
  distinct p := by simp [toJson]

/-- Profiles come back. -/
theorem Profile.lossless : Lossless toJson ofJson? where
  reads p := by
    simp [ofJson?, toJson, jsonFields, Json.required?, Json.optional?, Json.text?, Json.bool?,
      Json.texts, Lossless.ofText.reads_option, Lossless.ofText.list.reads]
  present _ := nofun
  distinct p := by
    simp [toJson, jsonFields, Json.texts, Lossless.ofText.distinct_option]

/-- The keys of the fields of a profile. -/
def Profile.keys : List String :=
  ["stable_id", "fingerprint", "exported", "doc", "summary", "invariants", "side_effects"]

/-- A profile is read from the fields with its own keys. -/
theorem Profile.ofJson?_congr {v w : Json} (hfields : ∀ key ∈ keys, v.member? key = w.member? key) :
    ofJson? v = ofJson? w := by
  simp only [keys, List.forall_mem_cons] at hfields
  simp only [ofJson?, Json.required?, Json.optional?, hfields]

/-- The fields of a profile can stand behind others that have other keys. -/
theorem Profile.ofJson?_append (p : Profile) {fields : List (String × Json)}
    (hkeys : ∀ key ∈ keys, key ∉ fields.map Prod.fst) :
    ofJson? (.obj (fields ++ p.jsonFields)) = some p := by
  refine (ofJson?_congr fun key hkey => ?_).trans (lossless.reads p)
  exact Json.member?_append_of_notMem (hkeys key hkey) _

/-- Declarations come back. -/
theorem Declaration.lossless : Lossless toJson ofJson? where
  reads d := by
    simp [ofJson?, toJson, Json.required?, Json.optional?, Json.text?, Json.texts,
      SymbolKind.lossless.reads, Visibility.lossless.reads, Extent.lossless.reads,
      Profile.lossless.reads, Decorator.lossless.list.reads, Parameter.lossless.list.reads,
      Lossless.ofText.list.reads, Lossless.ofText.reads_option, Lossless.ofNat.reads_option]
  present _ := nofun
  distinct d := by
    simp [toJson, Json.texts, SymbolKind.lossless.distinct, Visibility.lossless.distinct,
      Extent.lossless.distinct, Profile.lossless.distinct, Decorator.lossless.distinct,
      Parameter.lossless.distinct, Lossless.ofText.distinct_option,
      Lossless.ofNat.distinct_option]

/-- Imported names come back from their tags. -/
theorem ImportedName.lossless : Lossless toJson ofJson? where
  reads name := by cases name <;> simp [ofJson?, toJson, Json.required?, Json.text?]
  present name := by cases name <;> nofun
  distinct name := by cases name <;> simp [toJson]

/-- Imports come back. -/
theorem ImportFact.lossless : Lossless toJson ofJson? where
  reads i := by
    simp [ofJson?, toJson, Json.required?, Json.text?, Json.nat?,
      ImportedName.lossless.reads, Extent.lossless.reads]
  present _ := nofun
  distinct i := by simp [toJson, ImportedName.lossless.distinct, Extent.lossless.distinct]

/-- Shapes of argument lists come back. -/
theorem Arguments.lossless : Lossless toJson ofJson? where
  reads a := by
    simp [ofJson?, toJson, Json.required?, Json.nat?, Json.bool?, Json.texts,
      Lossless.ofText.list.reads]
  present _ := nofun
  distinct a := by simp [toJson, Json.texts]

/-- Calls come back. -/
theorem CallFact.lossless : Lossless toJson ofJson? where
  reads c := by
    simp [ofJson?, toJson, Json.required?, Json.optional?, Json.text?, CallKind.lossless.reads,
      Arguments.lossless.reads, Extent.lossless.reads, Lossless.ofText.reads_option,
      Lossless.ofNat.reads_option]
  present _ := nofun
  distinct c := by
    simp [toJson, CallKind.lossless.distinct, Arguments.lossless.distinct,
      Extent.lossless.distinct, Lossless.ofText.distinct_option, Lossless.ofNat.distinct_option]

/-- The facts of a file come back. -/
theorem FileFacts.lossless : Lossless toJson ofJson? where
  reads f := by
    simp [ofJson?, toJson, Json.required?, Json.text?, Language.lossless.reads,
      Declaration.lossless.list.reads, ImportFact.lossless.list.reads,
      CallFact.lossless.list.reads]
  present _ := nofun
  distinct f := by
    simp [toJson, Language.lossless.distinct, Declaration.lossless.distinct,
      ImportFact.lossless.distinct, CallFact.lossless.distinct]

end Facts

section Records

/-- Modules come back. -/
theorem Module.lossless : Lossless toJson ofJson? where
  reads m := by
    simp [ofJson?, toJson, Json.required?, Json.text?, Json.nat?, Json.bool?, Json.texts,
      Language.lossless.reads, Lossless.ofText.list.reads, Lossless.ofNat.list.reads]
  present _ := nofun
  distinct m := by simp [toJson, Json.texts, Language.lossless.distinct]

/-- Where a symbol is declared comes back from its tag. -/
theorem scope_lossless : Lossless scopeToJson scopeOfJson? where
  reads parent := by
    cases parent <;> simp [scopeOfJson?, scopeToJson, Json.required?, Json.text?, Json.nat?]
  present parent := by cases parent <;> nofun
  distinct parent := by cases parent <;> simp [scopeToJson]

/-- The profile of a symbol is read from the symbol's own object. -/
theorem Symbol.profile_ofJson? (s : Symbol) : Profile.ofJson? s.toJson = some s.profile :=
  s.profile.ofJson?_append (by simp [Profile.keys])

/-- Symbols come back, with their profiles. -/
theorem Symbol.lossless : Lossless toJson ofJson? where
  reads s := by
    simp only [ofJson?, profile_ofJson?]
    simp [toJson, Profile.jsonFields, Json.required?, Json.optional?, Json.text?, Json.nat?,
      Json.texts, SymbolKind.lossless.reads, scope_lossless.reads, Visibility.lossless.reads,
      Extent.lossless.reads, Decorator.lossless.list.reads, Parameter.lossless.list.reads,
      Lossless.ofText.list.reads, Lossless.ofNat.list.reads, Lossless.ofText.reads_option]
  present _ := nofun
  distinct s := by
    simp [toJson, Profile.jsonFields, Json.texts, SymbolKind.lossless.distinct,
      scope_lossless.distinct, Visibility.lossless.distinct, Extent.lossless.distinct,
      Decorator.lossless.distinct, Parameter.lossless.distinct, Lossless.ofText.distinct_option]

/-- The status of an import comes back from its tag. -/
theorem ImportStatus.lossless : Lossless toJson ofJson? where
  reads status := by
    cases status <;> simp [ofJson?, toJson, Json.required?, Json.text?, Json.nat?]
  present status := by cases status <;> nofun
  distinct status := by cases status <;> simp [toJson]

/-- The binding of an import comes back from its tag. -/
theorem ImportBinding.lossless : Lossless toJson ofJson? where
  reads binding := by
    cases binding <;> simp [ofJson?, toJson, Json.required?, Json.text?, Json.nat?]
  present binding := by cases binding <;> nofun
  distinct binding := by cases binding <;> simp [toJson]

/-- Import edges come back. -/
theorem ImportEdge.lossless : Lossless toJson ofJson? where
  reads e := by
    simp [ofJson?, toJson, Json.required?, Json.optional?, Json.text?, Json.nat?,
      ImportedName.lossless.reads, ImportStatus.lossless.reads,
      ImportBinding.lossless.reads_option, Extent.lossless.reads, Lossless.ofNat.reads_option]
  present _ := nofun
  distinct e := by
    simp [toJson, ImportedName.lossless.distinct, ImportStatus.lossless.distinct,
      ImportBinding.lossless.distinct_option, Extent.lossless.distinct,
      Lossless.ofNat.distinct_option]

/-- The target of a call comes back from its tag. -/
theorem CallTarget.lossless : Lossless toJson ofJson? where
  reads target := by
    cases target <;> simp [ofJson?, toJson, Json.required?, Json.text?, Json.nat?]
  present target := by cases target <;> nofun
  distinct target := by cases target <;> simp [toJson]

/-- Call edges come back. -/
theorem CallEdge.lossless : Lossless toJson ofJson? where
  reads c := by
    simp [ofJson?, toJson, Json.required?, Json.optional?, Json.text?, Json.nat?,
      CallKind.lossless.reads, Arguments.lossless.reads, CallTarget.lossless.reads,
      Extent.lossless.reads, Lossless.ofText.reads_option, Lossless.ofNat.reads_option]
  present _ := nofun
  distinct c := by
    simp [toJson, CallKind.lossless.distinct, Arguments.lossless.distinct,
      CallTarget.lossless.distinct, Extent.lossless.distinct, Lossless.ofText.distinct_option,
      Lossless.ofNat.distinct_option]

/-- Diagnostics come back. -/
theorem Diagnostic.lossless : Lossless toJson ofJson? where
  reads d := by simp [ofJson?, toJson, Json.required?, Json.text?, Json.nat?]
  present _ := nofun
  distinct d := by simp [toJson]

/-- Different kinds of calls have different words. -/
theorem CallKind.word_injective : Function.Injective word := injective_of_reads ofWord?_word

/-- The counts of kinds come back in their order. -/
theorem kindCountsOfJson?_toJson (counts : List (CallKind × Nat)) :
    kindCountsOfJson? (kindCountsToJson counts) = some counts := by
  rw [kindCountsToJson, kindCountsOfJson?, Json.fields?, Option.bind_some]
  induction counts with
  | nil => rfl
  | cons entry counts ih =>
    rw [List.map_cons, List.mapM_cons, ih]
    simp [CallKind.ofWord?_word, Json.nat?]

/-- The counts have one key for each kind. -/
theorem keysDistinct_kindCountsToJson (counts : List (CallKind × Nat)) :
    (kindCountsToJson counts).KeysDistinct ↔ (counts.map Prod.fst).Nodup := by
  have hkeys : (counts.map fun entry => (entry.1.word, Json.nat entry.2)).map Prod.fst =
      (counts.map Prod.fst).map CallKind.word := by simp
  have hvalues : ∀ field ∈ counts.map fun entry => (entry.1.word, Json.nat entry.2),
      field.2.KeysDistinct := by
    intro field hfield
    obtain ⟨entry, _, rfl⟩ := List.mem_map.mp hfield
    exact .nat entry.2
  rw [kindCountsToJson, Json.keysDistinct_obj, and_iff_left hvalues, hkeys,
    List.nodup_map_iff CallKind.word_injective]

/-- Statistics come back. -/
theorem Stats.ofJson?_toJson (s : Stats) : ofJson? s.toJson = some s := by
  simp [ofJson?, toJson, Json.required?, Json.nat?, kindCountsOfJson?_toJson]

/-- Statistics repeat a key only among the counts of kinds. -/
theorem Stats.keysDistinct_toJson (s : Stats) :
    s.toJson.KeysDistinct ↔ (s.callsByKind.map Prod.fst).Nodup := by
  simp [toJson, keysDistinct_kindCountsToJson]

/-- Snapshots come back. -/
theorem Snapshot.ofJson?_toJson (s : Snapshot) : ofJson? s.toJson = some s := by
  simp [ofJson?, toJson, Json.required?, Module.lossless.list.reads, Symbol.lossless.list.reads,
    ImportEdge.lossless.list.reads, CallEdge.lossless.list.reads, Diagnostic.lossless.list.reads,
    Stats.ofJson?_toJson]

/-- The counts of kinds are the only object of a snapshot whose keys are not fixed. -/
theorem Snapshot.keysDistinct_toJson (s : Snapshot) :
    s.toJson.KeysDistinct ↔ (s.stats.callsByKind.map Prod.fst).Nodup := by
  simp [toJson, Stats.keysDistinct_toJson, Module.lossless.distinct, Symbol.lossless.distinct,
    ImportEdge.lossless.distinct, CallEdge.lossless.distinct, Diagnostic.lossless.distinct]

/-- Different snapshots are written differently. -/
theorem Snapshot.toJson_injective : Function.Injective toJson := injective_of_reads ofJson?_toJson

end Records

/-- Facts that were written are read back together. -/
theorem mapM_ofJson?_toJson (files : List FileFacts) :
    (files.map FileFacts.toJson).mapM FileFacts.ofJson? = some files :=
  FileFacts.lossless.list.reads files

/-- A graph of some files lists no kind of call twice, so its JSON form repeats no key. -/
theorem keysDistinct_of_resolveFacts {config : ResolutionConfig} {files : List FileFacts}
    {graph : Graph} (hresolves : resolveFacts config files = .ok graph) :
    graph.records.toJson.KeysDistinct := by
  rw [Snapshot.keysDistinct_toJson]
  cases files with
  | nil => cases hresolves
  | cons file files =>
    have hrun := completedRun_of_ne_nil config (List.cons_ne_nil file files)
    obtain rfl := Except.ok.inj (hrun.resolves.symm.trans hresolves)
    exact nodup_countKinds _

/-- Facts and snapshots come back unchanged from their JSON forms, in which no object repeats a key.
Facts that were written resolve as before, and graphs with the same JSON text are equal. -/
theorem json_forms_are_lossless :
    (∀ facts : FileFacts,
      FileFacts.ofJson? facts.toJson = some facts ∧ facts.toJson.KeysDistinct) ∧
    (∀ records : Snapshot, Snapshot.ofJson? records.toJson = some records ∧
      (records.toJson.KeysDistinct ↔ (records.stats.callsByKind.map Prod.fst).Nodup)) ∧
    (∀ config files graph, resolveFacts config files = .ok graph →
      graph.records.toJson.KeysDistinct) ∧
    (∀ config files,
      ((files.map FileFacts.toJson).mapM FileFacts.ofJson?).map (resolveFacts config) =
        some (resolveFacts config files)) ∧
    (∀ facts facts' : FileFacts, facts.toJson.pretty 0 = facts'.toJson.pretty 0 ↔ facts = facts') ∧
    (∀ records records' : Snapshot,
      (Graph.ofRecords records).toJsonText = (Graph.ofRecords records').toJsonText ↔
        Graph.ofRecords records = Graph.ofRecords records') := by
  refine ⟨?_, ?_, ?_, ?_, ?_, ?_⟩
  · intro facts
    exact ⟨FileFacts.lossless.reads facts, FileFacts.lossless.distinct facts⟩
  · intro records
    exact ⟨records.ofJson?_toJson, records.keysDistinct_toJson⟩
  · intro config files graph hresolves
    exact keysDistinct_of_resolveFacts hresolves
  · intro config files
    rw [mapM_ofJson?_toJson, Option.map_some]
  · intro facts facts'
    rw [Json.pretty_inj, FileFacts.lossless.injective.eq_iff]
  · intro records records'
    constructor
    · intro htext
      have hjson : records.toJson = records'.toJson := Json.pretty_inj.mp htext
      rw [Snapshot.toJson_injective hjson]
    · intro hgraph
      rw [hgraph]

/-- A file with a quote and a line break in its names, a decorated method with optional parts, a
wildcard and calls of two kinds. -/
theorem json_forms_are_lossless_escaped :
    let facts : FileFacts :=
      { path := ⟨"pkg/\"a\".py"⟩
        language := .python
        declarations :=
          [{ name := "Shape", kind := .classLike, parent := none, visibility := .exposed },
            { name := "__area", kind := .method, parent := some 0, visibility := .mangled
              decorators := [⟨"cache(1)", "cache", true⟩]
              returnType := some "int"
              profile := { doc := some "First line.\nSecond \u0001 line." } }]
        imports := [{ target := "math", name := .wildcard, localName := "*", depth := 1 }]
        calls :=
          [{ callee := "print", name := "print" },
            { callee := "x.f", name := "f", receiver := some "x", kind := .method
              caller := some 1 }] }
    FileFacts.ofJson? facts.toJson = some facts ∧ facts.toJson.KeysDistinct ∧
      ∃ graph, resolveFacts {} [facts] = .ok graph ∧ graph.records.toJson.KeysDistinct ∧
        Snapshot.ofJson? graph.records.toJson = some graph.records := by
  intro facts
  obtain ⟨hfacts, hrecords, hresolved, -⟩ := json_forms_are_lossless
  have hresolves := (completedRun_of_ne_nil {} (List.cons_ne_nil facts [])).resolves
  exact ⟨(hfacts facts).1, (hfacts facts).2, _, hresolves, hresolved _ _ _ hresolves,
    (hrecords _).1⟩

end CodeAtlas
