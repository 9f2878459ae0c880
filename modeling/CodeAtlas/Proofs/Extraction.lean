import CodeAtlas.Facts.Extract
import CodeAtlas.Proofs.Collection
import CodeAtlas.Proofs.Compaction
import CodeAtlas.Proofs.Phases

/-!
# Extracted facts are well formed

Whatever a tree without errors looks like, its facts refer to their own declarations only, and every
climb along their parent links ends. So the bounded searches that read parent links, for qualified
names in a file and for scopes in a unit, stop because the climb is over and never because of their
bound.
-/

namespace CodeAtlas

namespace Document

variable {doc : Document} {P : CallSite → Prop}

mutual

/-- What holds of the sites that single nodes are holds of all sites of a tree. -/
theorem callSites_forall (hown : ∀ t scopes, ∀ site ∈ doc.ownSite t scopes, P site) :
    ∀ (scopes : List (Nat × Nat)) (t : Tree), ∀ site ∈ doc.callSites scopes t, P site
  | scopes, .node label children => by
    rw [callSites]
    split
    · intro site hsite
      rcases List.mem_append.mp hsite with hsite | hsite
      · exact sitesAmong_forall hown scopes _ children site hsite
      · exact sitesAmong_forall hown _ _ children site hsite
    · split
      · exact decoratorSites_forall hown scopes children
      · intro site hsite
        rcases List.mem_append.mp hsite with hsite | hsite
        · exact sitesAmong_forall hown scopes _ children site hsite
        · exact hown _ _ site hsite

/-- What holds of the sites that single nodes are holds of all sites of several trees. -/
theorem sitesAmong_forall (hown : ∀ t scopes, ∀ site ∈ doc.ownSite t scopes, P site) :
    ∀ (scopes : List (Nat × Nat)) (keep : Tree → Bool) (ts : List Tree),
      ∀ site ∈ doc.sitesAmong scopes keep ts, P site
  | _, _, [] => fun _ hsite => by simp [sitesAmong] at hsite
  | scopes, keep, t :: ts => by
    rw [sitesAmong]
    intro site hsite
    rcases List.mem_append.mp hsite with hsite | hsite
    · split at hsite
      · exact callSites_forall hown scopes t site hsite
      · simp at hsite
    · exact sitesAmong_forall hown scopes keep ts site hsite

/-- What holds of the sites that single nodes are holds of all sites inside of a node. -/
theorem sitesInside_forall (hown : ∀ t scopes, ∀ site ∈ doc.ownSite t scopes, P site) :
    ∀ (scopes : List (Nat × Nat)) (t : Tree), ∀ site ∈ doc.sitesInside scopes t, P site
  | scopes, .node _ children => by
    rw [sitesInside]
    exact sitesAmong_forall hown scopes _ children

/-- What holds of the sites that single nodes are holds of all sites of a decorator. -/
theorem decoratorSites_forall (hown : ∀ t scopes, ∀ site ∈ doc.ownSite t scopes, P site) :
    ∀ (scopes : List (Nat × Nat)) (ts : List Tree), ∀ site ∈ doc.decoratorSites scopes ts, P site
  | _, [] => fun _ hsite => by simp [decoratorSites] at hsite
  | scopes, t :: ts => by
    rw [decoratorSites]
    split
    · exact decoratorSites_forall hown scopes ts
    · split
      · exact sitesInside_forall hown scopes t
      · intro site hsite
        rcases List.mem_append.mp hsite with hsite | hsite
        · exact callSites_forall hown scopes t site hsite
        · exact sitesAmong_forall hown scopes _ ts site hsite

end

/-- The sites of calls decorate nothing. -/
theorem callSites_decorates (doc : Document) (scopes : List (Nat × Nat)) (t : Tree) :
    ∀ site ∈ doc.callSites scopes t, site.call.decorates = none := by
  refine callSites_forall (P := fun site => site.call.decorates = none) ?_ scopes t
  intro t scopes site hsite
  rw [ownSite] at hsite
  split at hsite
  · exact List.mem_singleton.mp hsite ▸ rfl
  · exact List.mem_singleton.mp hsite ▸ rfl
  · exact List.mem_singleton.mp hsite ▸ rfl
  · simp at hsite

end Document

/-- A caller is one of the indices that the scopes lead to. -/
theorem CallSite.attributed_caller {site : CallSite} {scopes : List ((Nat × Nat) × Nat)} {p : Nat}
    (h : (site.attributed scopes).caller = some p) : ∃ scope ∈ scopes, scope.2 = p := by
  obtain ⟨range, _, hlookup⟩ := List.exists_of_findSome?_eq_some h
  obtain ⟨before, after, hscopes, _⟩ := List.lookup_eq_some_iff.mp hlookup
  exact ⟨(range, p), by simp [hscopes], rfl⟩

namespace Outline

/-- Declarations with finite climbs, and scopes and calls that lead to them. -/
structure Linked (declarations : List Declaration) (scopes : List ((Nat × Nat) × Nat))
    (calls : List CallFact) : Prop where
  climbs : ∀ i < declarations.length, ∃ chain, Climb (parentAt declarations) (some i) chain
  scopes : ∀ scope ∈ scopes, scope.2 < declarations.length
  callers : ∀ c ∈ calls, ∀ p, c.caller = some p → p < declarations.length
  decorated : ∀ c ∈ calls, ∀ p, c.decorates = some p → p < declarations.length

/-- A sound outline finishes with links that lead to its declarations. -/
theorem Sound.linked_finish {out : Outline} (h : out.Sound) (lang : Language) :
    Linked (out.finish lang).1 (out.finish lang).2.1 (out.finish lang).2.2 := by
  have hlength := length_attached out
  have hclimbs : ∀ i < out.attached.length,
      ∃ chain, Climb (parentAt (out.attached.map (·.declaration))) (some i) chain :=
    fun _ => h.attached_climbs
  have hrenumber (p : Option Nat) (hp : ∀ i, p = some i → i < out.entries.length) (k : Nat)
      (hk : p.map (newIndex out.attached) = some k) : k < (kept out.attached).length := by
    obtain ⟨i, hi, rfl⟩ := Option.map_eq_some_iff.mp hk
    exact newIndex_lt (hlength ▸ hp i hi)
  rw [finish]
  split
  · refine ⟨fun _ => kept_climbs hclimbs, ?_, ?_, ?_⟩
    · intro scope hscope
      obtain ⟨old, hold, rfl⟩ := List.mem_map.mp hscope
      exact newIndex_lt (hlength ▸ h.scopes old hold)
    · intro c hc
      obtain ⟨old, hold, rfl⟩ := List.mem_map.mp hc
      exact hrenumber old.caller (h.callers old hold)
    · intro c hc
      obtain ⟨old, hold, rfl⟩ := List.mem_map.mp hc
      exact hrenumber old.decorates (h.decorated old hold)
  · refine ⟨?_, ?_, ?_, ?_⟩
    · simpa using hclimbs
    · simpa [hlength] using h.scopes
    · simpa [hlength] using h.callers
    · simpa [hlength] using h.decorated

end Outline

/-- Stable identities leave parents as they are. -/
theorem parentAt_withStableIds (path : Path) (declarations : List Declaration) :
    parentAt (withStableIds path declarations) = parentAt declarations := by
  funext i
  simp only [parentAt, withStableIds, List.getElem?_map, List.getElem?_zipIdx]
  cases declarations[i]? <;> rfl

/-- Stable identities leave names as they are. -/
theorem nameAt_withStableIds (path : Path) (declarations : List Declaration) :
    nameAt (withStableIds path declarations) = nameAt declarations := by
  funext i
  simp only [nameAt, withStableIds, List.getElem?_map, List.getElem?_zipIdx]
  cases declarations[i]? <;> rfl

/-- Stable identities are given to every declaration. -/
theorem length_withStableIds (path : Path) (declarations : List Declaration) :
    (withStableIds path declarations).length = declarations.length := by
  simp [withStableIds]

/-- A declaration's parent is in range where climbs end. -/
theorem parent_lt_of_climbs {declarations : List Declaration}
    (h : ∀ i < declarations.length, ∃ chain, Climb (parentAt declarations) (some i) chain) :
    ∀ d ∈ declarations, ∀ p, d.parent = some p → p < declarations.length := by
  intro d hd p hp
  obtain ⟨i, hi⟩ := List.mem_iff_getElem?.mp hd
  obtain ⟨chain, hclimb⟩ := h i (List.getElem?_eq_some_iff.mp hi).1
  have hlink : parentAt declarations i = some (some p) := by rw [parentAt, hi, Option.map_some, hp]
  cases hclimb with
  | step hparent habove =>
    obtain rfl := Option.some.inj (hlink.symm.trans hparent)
    cases habove with
    | step hnext _ => exact lt_of_parentAt hnext

/-- The facts of every document are well formed. -/
theorem Document.facts_wellFormed (doc : Document) (path : Path) : (doc.facts path).WellFormed := by
  have hlinked := (Outline.sound_outline doc).linked_finish doc.language
  have hclimbs : ∀ i < (doc.facts path).declarations.length,
      ∃ chain, Climb (parentAt (doc.facts path).declarations) (some i) chain := by
    intro i hi
    rw [facts, length_withStableIds] at hi
    rw [facts, parentAt_withStableIds]
    exact hlinked.climbs i hi
  have hlength : (doc.facts path).declarations.length = (doc.outline.finish doc.language).1.length :=
    length_withStableIds path _
  refine ⟨parent_lt_of_climbs hclimbs, ?_, ?_, hclimbs⟩
  · intro c hc p hp
    rw [hlength]
    rcases List.mem_append.mp hc with hsite | hdecorator
    · obtain ⟨site, _, rfl⟩ := List.mem_map.mp hsite
      obtain ⟨scope, hscope, rfl⟩ := CallSite.attributed_caller hp
      exact hlinked.scopes scope hscope
    · exact hlinked.callers c hdecorator p hp
  · intro c hc p hp
    rw [hlength]
    rcases List.mem_append.mp hc with hsite | hdecorator
    · obtain ⟨site, hmem, rfl⟩ := List.mem_map.mp hsite
      have hnone := doc.callSites_decorates [] doc.tree site hmem
      cases hnone.symm.trans hp
    · exact hlinked.decorated c hdecorator p hp

/-- The stable identity of a declaration digests the names along its whole climb. -/
theorem stableId_of_climb {path : Path} {declarations : List Declaration} {i : Nat}
    {d : Declaration} {chain : List Nat} (hd : (withStableIds path declarations)[i]? = some d)
    (h : Climb (parentAt (withStableIds path declarations)) (some i) chain) :
    d.profile.stableId =
      stableId path (withStableIds path declarations) i d ∧
    qualifiedName (withStableIds path declarations) i =
      Text.joinWith "." (chain.map (nameAt (withStableIds path declarations))).reverse := by
  have hname := qualifiedName_eq_of_climb h
  refine ⟨?_, hname⟩
  rw [parentAt_withStableIds] at h
  rw [nameAt_withStableIds, ← qualifiedName_eq_of_climb h] at hname
  simp only [withStableIds, List.getElem?_map, List.getElem?_zipIdx, Option.map_map] at hd
  obtain ⟨old, _, rfl⟩ := Option.map_eq_some_iff.mp hd
  simp only [Function.comp, Nat.zero_add, stableId, hname]

/-- A file whose facts were read off a tree. -/
def FileFacts.Extracted (file : FileFacts) : Prop :=
  ∃ path language text tree, extractSource path language text tree = .ok file

/-- Extracted facts are well formed. -/
theorem FileFacts.Extracted.wellFormed {file : FileFacts} (h : file.Extracted) :
    file.WellFormed := by
  obtain ⟨path, language, text, tree, hfile⟩ := h
  rw [extractSource] at hfile
  split at hfile
  · cases hfile
  · exact Except.ok.inj hfile ▸ Document.facts_wellFormed _ path

namespace Tables

/-- What every search along the scopes around a place comes to, when these are known: the search
for a name, for the class around the place, for the receiver of a method and for a base class. -/
structure SearchesAlong (tables : Tables) (start : Option Nat) (chain : List Nat) : Prop where
  climb : Climb tables.parentAt start chain
  bounded : chain.length ≤ tables.symbols.size
  names : ∀ config module name, tables.localHits config module start name =
    firstNonEmpty (chain.map (tables.scopeHits config name) ++ [tables.topLevelNamed module name])
  classes : tables.enclosingClass? start = chain.find? tables.isClass
  receivers : ∀ receiver, tables.isOwnReceiver start receiver =
    chain.any fun id => tables.receiverNames[id]? == some (some receiver)
  basesFound : ∀ module path first rest id, Text.segments path = first :: rest →
    chain.findSome? (tables.childNamed? · first) = some id →
      ∀ found, tables.baseNamed? module start path = some found ↔
        rest.foldl tables.baseStep (.symbol id) = .symbol found
  basesMissed : ∀ module path first rest, Text.segments path = first :: rest →
    chain.findSome? (tables.childNamed? · first) = none →
      tables.baseNamed? module start path = tables.baseNamed? module none path

/-- Searches follow the climb from their start. -/
theorem searchesAlong_of_climb {tables : Tables} {start : Option Nat} {chain : List Nat}
    (h : Climb tables.parentAt start chain) : tables.SearchesAlong start chain := by
  have hchain := scopeChain_eq_of_climb h
  refine ⟨h, h.length_le fun _ _ => lt_of_parentAt, ?_, ?_, ?_, ?_, ?_⟩
  · intro config module name
    rw [localHits, hchain]
  · rw [enclosingClass?, hchain]
  · intro receiver
    rw [isOwnReceiver, hchain]
  · intro module path first rest id hpath hfound found
    simp only [baseNamed?, hpath, hchain, hfound, Option.some_or, Option.map_some]
    cases rest.foldl tables.baseStep (.symbol id) <;> simp
  · intro module path first rest hpath hmissed
    have hnone : tables.scopeChain none = [] := scopeChain_eq_of_climb .done
    simp only [baseNamed?, hpath, hchain, hmissed, hnone, List.findSome?_nil]

/-- Linking leaves symbols alone, so in every phase searches have finite climbs to follow. -/
theorem exists_searchesAlong {config : ResolutionConfig} {files : List FileFacts}
    (hfiles : ∀ file ∈ files, file.WellFormed) {tables : Tables}
    (htables : tables ∈ phases config files) {start : Option Nat}
    (hstart : ∀ id, start = some id → id < tables.symbols.size) :
    ∃ chain, tables.SearchesAlong start chain := by
  have hsymbols : tables.symbols = (ofFiles files).symbols := by
    simp only [phases, List.mem_cons, List.not_mem_nil, or_false] at htables
    rcases htables with rfl | rfl | rfl <;> rfl
  have hparents : tables.parentAt = (ofFiles files).parentAt := by
    funext id
    rw [parentAt, parentAt, hsymbols]
  have hclimbs : tables.Climbs := by
    rw [Climbs, hparents, hsymbols]
    exact ofFiles_climbs files hfiles
  cases start with
  | none => exact ⟨[], searchesAlong_of_climb .done⟩
  | some id =>
    obtain ⟨chain, hclimb⟩ := hclimbs id (hstart id rfl)
    exact ⟨chain, searchesAlong_of_climb hclimb⟩

end Tables

/-- A tree without errors yields well-formed facts, whose declarations are identified by the names
along a finite climb, and in every unit of extracted files the searches along scopes follow finite
climbs. -/
theorem extraction_yields_well_formed_facts :
    (∀ path language text tree, Tree.errorOffset? tree = none →
      ∃ facts, extractSource path language text tree = .ok facts ∧ facts.WellFormed ∧
        ∀ i d, facts.declarations[i]? = some d →
          ∃ chain, Climb (parentAt facts.declarations) (some i) chain ∧
            chain.length ≤ facts.declarations.length ∧
            d.profile.stableId = stableId path facts.declarations i d ∧
            qualifiedName facts.declarations i =
              Text.joinWith "." (chain.map (nameAt facts.declarations)).reverse) ∧
    ∀ config files, (∀ file ∈ files, file.Extracted) →
      ∀ tables ∈ Tables.phases config files, ∀ start : Option Nat,
        (∀ id, start = some id → id < tables.symbols.size) →
          ∃ chain, tables.SearchesAlong start chain := by
  refine ⟨?_, ?_⟩
  · intro path language text tree hclean
    have hfacts := Document.facts_wellFormed { language := language, text := text, tree := tree } path
    refine ⟨_, by rw [extractSource, hclean], hfacts, ?_⟩
    intro i d hd
    obtain ⟨chain, hclimb⟩ := hfacts.climbs i (List.getElem?_eq_some_iff.mp hd).1
    exact ⟨chain, hclimb, hclimb.length_le fun _ _ => lt_of_parentAt, stableId_of_climb hd hclimb⟩
  · intro config files hfiles tables htables start hstart
    exact Tables.exists_searchesAlong (fun file hfile => (hfiles file hfile).wellFormed) htables hstart

/-- The tree of `impl S{fn f(){}}struct S{}`. -/
def methodBeforeType : Tree :=
  let named (kind : String) (field : Option String) (start stop : Nat) (children : List Tree) :=
    Tree.node { kind := kind, named := true, field := field, start := start, stop := stop } children
  named "source_file" none 0 26
    [named "impl_item" none 0 16
      [named "type_identifier" (some "type") 5 6 [],
        named "declaration_list" (some "body") 6 16
          [named "function_item" none 7 15
            [named "identifier" (some "name") 10 11 [],
              named "parameters" (some "parameters") 11 13 [],
              named "block" (some "body") 13 15 []]]],
      named "struct_item" none 16 26
        [named "type_identifier" (some "name") 23 24 [],
          named "field_declaration_list" (some "body") 24 26 []]]

/-- A method that is declared before its type, whose parent link points forwards. -/
theorem extraction_yields_well_formed_facts_method_before_type :
    methodBeforeType.errorOffset? = none ∧
      ∃ facts, extractSource ⟨"s.rs"⟩ .rust "impl S{fn f(){}}struct S{}" methodBeforeType = .ok facts ∧
        facts.declarations.map (·.parent) = [some 1, none] ∧ facts.WellFormed ∧
        ∀ config, ∀ tables ∈ Tables.phases config [facts], ∀ start : Option Nat,
          (∀ id, start = some id → id < tables.symbols.size) →
            ∃ chain, tables.SearchesAlong start chain := by
  refine ⟨rfl, ?_⟩
  obtain ⟨facts, hfacts, hwellFormed, _⟩ := extraction_yields_well_formed_facts.1
    ⟨"s.rs"⟩ .rust "impl S{fn f(){}}struct S{}" methodBeforeType rfl
  refine ⟨facts, hfacts, ?_, hwellFormed, ?_⟩
  · cases hfacts
    decide
  · intro config
    refine extraction_yields_well_formed_facts.2 config [facts] fun file hfile => ?_
    obtain rfl := List.mem_singleton.mp hfile
    exact ⟨_, _, _, _, hfacts⟩

end CodeAtlas
