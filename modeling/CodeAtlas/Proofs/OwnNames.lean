import CodeAtlas.Proofs.ModuleLocation
import CodeAtlas.Proofs.Splitting

/-!
# Modules under their own names

A module can be imported by its own name, which is its key with the separator of the ecosystem
between the segments. The name is split into the key again, and a module with just this key comes
before all those whose keys only end so.

What can go wrong is the splitting. A segment may hold blanks or the separator, it may look like the
start of a relative target, or like a file name whose extension is spelled out. Two colons as the
separator need one thing more: a segment in front of them must not end in a colon.
-/

namespace CodeAtlas

/-! ### Names of keys -/

/-- What stands between the segments of a module's name. -/
def Ecosystem.separator : Ecosystem → String
  | python | java => "."
  | rust => "::"
  | go | script | cFamily => "/"

/-- The name of a module in the notation of its ecosystem. -/
def Module.ownName (m : Module) : String := Text.joinWith m.language.ecosystem.separator m.key

/-- A key whose segments mean themselves in the notation of an ecosystem. -/
@[mk_iff]
structure Spellable (ecosystem : Ecosystem) (key : List String) : Prop where
  nonempty : key ≠ []
  filled : ∀ s ∈ key, s ≠ ""
  trimmed : ∀ s ∈ key, Text.trim s = s
  unseparated : ∀ s ∈ key, Text.contains ecosystem.separator s = false
  undotted : ∀ s ∈ key, s ≠ "." ∧ s ≠ ".."
  /-- The first segment does not say where a target starts. -/
  absolute : ecosystem = .rust → ∀ s ∈ key.head?, s ≠ "self" ∧ s ≠ "super" ∧ s ≠ "crate"
  unscoped : ecosystem = .cFamily → ∀ s ∈ key, Text.contains "::" s = false
  /-- The last segment is no file name with an extension and does not stand for its directory. -/
  extensionless : ecosystem = .script → ∀ s ∈ key.getLast?, s ≠ "index" ∧
    ∀ extension ∈ scriptExtensions, Text.endsWith ("." ++ extension) s = false

/-- Being spellable can be decided. -/
instance (ecosystem : Ecosystem) (key : List String) : Decidable (Spellable ecosystem key) :=
  decidable_of_iff' _ (spellable_iff ecosystem key)

/-- No segment makes up two colons together with those behind it. -/
def ApartFromColons (ecosystem : Ecosystem) (key : List String) : Prop :=
  ecosystem = .rust → ∀ s ∈ key.dropLast, Text.endsWith ":" s = false

/-- Standing apart from colons can be decided. -/
instance (ecosystem : Ecosystem) (key : List String) : Decidable (ApartFromColons ecosystem key) :=
  inferInstanceAs (Decidable (_ → _))

/-! ### Reading a name -/

/-- Clean pieces stay as they are. -/
theorem cleanSegments_eq_self {pieces : List String} (hfilled : ∀ s ∈ pieces, s ≠ "")
    (htrimmed : ∀ s ∈ pieces, Text.trim s = s) : cleanSegments pieces = pieces := by
  rw [cleanSegments, List.map_congr_left htrimmed, List.map_id', List.filter_eq_self]
  simpa using hfilled

/-- The stem of a name without a script extension is the name. -/
theorem scriptStem_eq_self {name : String}
    (h : ∀ extension ∈ scriptExtensions, Text.endsWith ("." ++ extension) name = false) :
    scriptStem name = name := by
  rw [scriptStem]
  split
  · rename_i stem extension hbroken
    rw [if_neg]
    intro hscript
    have hend := h extension (List.contains_iff_mem.mp hscript)
    rw [Text.breakAtLast?_eq_some hbroken, String.append_assoc, Text.endsWith_append] at hend
    cases hend
  · rfl

namespace Spellable

variable {ecosystem : Ecosystem} {key : List String} (h : Spellable ecosystem key)
include h

/-- The segments of a key stay as they are when they are cleaned. -/
theorem cleanSegments_eq : cleanSegments key = key := cleanSegments_eq_self h.filled h.trimmed

/-- A name with single characters between the segments is split into the key. -/
theorem splitChar_eq {c : Char} (hseparator : ecosystem.separator = String.singleton c) :
    Text.splitChar c (Text.joinWith ecosystem.separator key) = key :=
  Text.splitChar_joinWith hseparator h.nonempty h.unseparated

/-- A name with dots does not start with one. -/
theorem trimStartChar_eq (hseparator : ecosystem.separator = String.singleton '.') :
    Text.trimStartChar '.' (Text.joinWith ecosystem.separator key) =
      Text.joinWith ecosystem.separator key := by
  obtain ⟨first, rest, rfl⟩ := List.exists_cons_of_ne_nil h.nonempty
  obtain ⟨more, hmore⟩ := Text.exists_joinWith_cons ecosystem.separator first rest
  obtain ⟨c, cs, hfirst⟩ := List.exists_cons_of_ne_nil
    (mt String.toList_eq_nil_iff.mp (h.filled first List.mem_cons_self))
  have hc : (c == '.') = false :=
    Text.not_mem_of_contains_eq_false hseparator (h.unseparated first List.mem_cons_self) c
      (hfirst ▸ List.mem_cons_self)
  rw [Text.trimStartChar, Text.Chars.trimStart, hmore, String.toList_append, hfirst,
    List.cons_append, List.dropWhile_cons_of_neg (by simp [hc]), ← List.cons_append, ← hfirst,
    ← String.toList_append, String.ofList_toList]

/-- A name with colons is split into the key. -/
theorem splitAt_eq (hrust : ecosystem = .rust) (hapart : ApartFromColons ecosystem key) :
    Text.splitAt "::" (Text.joinWith ecosystem.separator key) = key := by
  subst hrust
  refine Text.splitAt_joinWith h.nonempty (by decide) h.unseparated fun s hs before after hcut => ?_
  exact Text.eq_empty_of_append_colons (h.unseparated s (List.dropLast_subset _ hs))
    (hapart rfl s hs) hcut

/-- The first segment of an absolute name is not left out. -/
theorem dropWhile_eq (hrust : ecosystem = .rust) :
    (key.dropWhile fun s => s = "self" || s = "super" || s = "crate") = key := by
  obtain ⟨first, rest, rfl⟩ := List.exists_cons_of_ne_nil h.nonempty
  obtain ⟨hself, hsuper, hcrate⟩ := h.absolute hrust first rfl
  exact List.dropWhile_cons_of_neg (by simp [hself, hsuper, hcrate])

/-- A name with slashes has the segments of the key. -/
theorem pathSegments_eq (hseparator : ecosystem.separator = String.singleton '/') :
    pathSegments (Text.joinWith ecosystem.separator key) = key := by
  have hundotted : key.filter (fun s => s ≠ "." && s ≠ "..") = key := by
    rw [List.filter_eq_self]
    simpa using h.undotted
  rw [pathSegments, h.splitChar_eq hseparator, hundotted, h.cleanSegments_eq]

/-- The last segment of a script's name is not changed. -/
theorem scriptSegments_eq (hscript : ecosystem = .script) :
    scriptSegments (Text.joinWith ecosystem.separator key) = key := by
  have hpath := h.pathSegments_eq (by rw [hscript]; rfl)
  have hlast := List.getLast?_eq_some_getLast h.nonempty
  obtain ⟨hindex, hextension⟩ := h.extensionless hscript _ hlast
  rw [scriptSegments, hpath, hlast]
  simp only [scriptStem_eq_self hextension, if_neg hindex]
  exact List.dropLast_append_getLast h.nonempty

/-- No two colons stand in the name of a header. -/
theorem contains_colons_eq (hfamily : ecosystem = .cFamily) :
    Text.contains "::" (Text.joinWith ecosystem.separator key) = false := by
  have hseparator : ecosystem.separator = String.singleton '/' := by rw [hfamily]; rfl
  exact Text.contains_joinWith hseparator (by decide) (by decide) (h.unscoped hfamily)

end Spellable

/-- Read in any language of the ecosystem, the name of a key has the segments of the key. -/
theorem Spellable.targetSegments_eq {lang : Language} {key : List String}
    (h : Spellable lang.ecosystem key) (hapart : ApartFromColons lang.ecosystem key) :
    targetSegments (Text.joinWith lang.ecosystem.separator key) lang = key := by
  cases lang with
  | python =>
    rw [targetSegments, h.trimStartChar_eq rfl, h.splitChar_eq rfl, h.cleanSegments_eq]
  | java => rw [targetSegments, h.splitChar_eq rfl, h.cleanSegments_eq]
  | rust =>
    rw [targetSegments, h.splitAt_eq rfl hapart, h.dropWhile_eq rfl, h.cleanSegments_eq]
  | go => exact h.pathSegments_eq rfl
  | javaScript | typeScript | tsx => exact h.scriptSegments_eq rfl
  | c | cpp =>
    rw [targetSegments, h.contains_colons_eq rfl, if_neg Bool.false_ne_true]
    exact h.pathSegments_eq rfl

namespace Tables

/-! ### Finding a name -/

/-- The modules of the ecosystem that bear the key of a module. -/
def bearers (tables : Tables) (t : Module) : Set Module :=
  {m | m ∈ tables.modules ∧ m.language.ecosystem = t.language.ecosystem ∧ m.key = t.key}

/-- An absolute search for the key of a module finds the first module that has it. -/
theorem locate_key {tables : Tables} (h : Numbered Module.id tables.modules) {importer t : Module}
    (himporter : importer ∈ tables.modules) (ht : t ∈ tables.modules) (hkey : t.key ≠ [])
    (hshared : importer.language.ecosystem = t.language.ecosystem) :
    ∃ first, IsLeast (Module.id '' tables.bearers t) first ∧
      tables.locate importer.id 0 t.key = (some first, []) := by
  have hset : {m | m ∈ tables.modulesWhere importer.language (· == t.key)} =
      tables.bearers t := by
    ext m
    rw [Set.mem_ofPred_eq, mem_modulesWhere_iff, beq_iff_eq, Language.sharesModulesWith,
      beq_iff_eq, hshared]
    rfl
  have hfinds : FindsLeast (tables.moduleAt? importer.language t.key) (tables.bearers t) :=
    hset ▸ findsLeast_head?_modulesWhere h importer.language (· == t.key)
  have hall : SearchesAll importer 0 t.key := ⟨hkey, .inl rfl⟩
  rw [locate_of_searchesAll (h.getElem?_of_mem himporter) hall (if_pos rfl)]
  cases hfound : tables.moduleAt? importer.language t.key with
  | some first => exact ⟨first, (hfinds first).mp hfound, rfl⟩
  | none =>
    have hself : t ∈ tables.bearers t := ⟨ht, rfl, rfl⟩
    rw [hfinds.eq_none_iff.mp hfound] at hself
    cases hself

section OwnName

variable (tables : Tables) (t importer : Module)

/-- How a module is found under its own name. -/
structure FoundByOwnName (first : Nat) : Prop where
  /-- The name has the segments of the key. -/
  read : targetSegments t.ownName importer.language = t.key
  /-- The module that is found is the first one of the ecosystem with the same key. -/
  least : IsLeast (Module.id '' tables.bearers t) first
  /-- An absolute import of the name leads there and leaves no doubt. -/
  linked : ∀ e : ImportEdge, e.module = importer.id → e.depth = 0 → e.target = t.ownName →
    tables.linkImport e =
      ({ e with
          status := (tables.outcomeAt first e.name).1
          binding := (tables.outcomeAt first e.name).2 }, [])

variable {tables t importer}

/-- A module with a key that can be spelled is found under its own name. -/
theorem exists_foundByOwnName (h : Numbered Module.id tables.modules)
    (himporter : importer ∈ tables.modules) (ht : t ∈ tables.modules)
    (hshared : importer.language.ecosystem = t.language.ecosystem)
    (hkey : Spellable t.language.ecosystem t.key)
    (hapart : ApartFromColons t.language.ecosystem t.key) :
    ∃ first, tables.FoundByOwnName t importer first := by
  obtain ⟨first, hleast, hlocated⟩ := locate_key h himporter ht hkey.nonempty hshared
  have hread : targetSegments t.ownName importer.language = t.key := by
    rw [Module.ownName, ← hshared]
    exact Spellable.targetSegments_eq (hshared ▸ hkey) (hshared ▸ hapart)
  refine ⟨first, hread, hleast, fun e hmodule hdepth htarget => ?_⟩
  have horigin : tables.modules[e.module]? = some importer :=
    hmodule ▸ h.getElem?_of_mem himporter
  have hsearch : tables.locate e.module e.depth (targetSegments e.target importer.language) =
      (some first, []) := by
    rw [hmodule, hdepth, htarget, hread, hlocated]
  rw [linkImport, judgeImport_of_located horigin (congrArg Prod.fst hsearch), hsearch]

end OwnName

end Tables

/-- Over every list of files, a module whose key can be spelled is found under its own name from
every module of its ecosystem, however many other keys end in the same way. -/
theorem modules_answer_to_own_names (files : List FileFacts) {t importer : Module}
    (ht : t ∈ (Tables.ofFiles files).modules)
    (himporter : importer ∈ (Tables.ofFiles files).modules)
    (hshared : importer.language.ecosystem = t.language.ecosystem)
    (hkey : Spellable t.language.ecosystem t.key)
    (hapart : ApartFromColons t.language.ecosystem t.key) :
    ∃ first, (Tables.ofFiles files).FoundByOwnName t importer first :=
  Tables.exists_foundByOwnName (Tables.ofFiles_importers files).1 himporter ht hshared hkey hapart

/-- Two scripts whose keys end alike, and a module that imports the one with the shorter key. -/
def alikeScripts : List FileFacts :=
  [{ path := ⟨"app/lib/util.tsx"⟩, language := .tsx },
    { path := ⟨"lib/util.ts"⟩, language := .typeScript },
    { path := ⟨"main.js"⟩, language := .javaScript
      imports := [{ target := "lib/util", name := .whole, localName := "util" }] }]

/-- The shorter key is found, although the module with the longer one comes first. -/
theorem modules_answer_to_own_names_alike :
    ∃ rival t importer, (Tables.ofFiles alikeScripts).modules = [rival, t, importer] ∧
      t.key <:+ rival.key ∧ t.ownName = "lib/util" ∧
      importer.language.ecosystem = t.language.ecosystem ∧
      Spellable t.language.ecosystem t.key ∧ ApartFromColons t.language.ecosystem t.key ∧
      (∃ first, (Tables.ofFiles alikeScripts).FoundByOwnName t importer first) ∧
      (Tables.ofFiles alikeScripts).linkImports.imports.map (·.status) = [.resolved t.id] := by
  have hfacts : ∃ rival t importer, (Tables.ofFiles alikeScripts).modules = [rival, t, importer] ∧
      (t.key <:+ rival.key ∧ t.ownName = "lib/util" ∧
        importer.language.ecosystem = t.language.ecosystem ∧
        Spellable t.language.ecosystem t.key ∧ ApartFromColons t.language.ecosystem t.key) ∧
      (Tables.ofFiles alikeScripts).linkImports.imports.map (·.status) = [.resolved t.id] := by
    rw [Tables.ofFiles_of_ordered (by decide) (by decide)]
    exact ⟨_, _, _, rfl, by decide +kernel, by decide +kernel⟩
  obtain ⟨rival, t, importer, hmodules, ⟨hends, hname, hshared, hkey, hapart⟩, hstatus⟩ := hfacts
  refine ⟨rival, t, importer, hmodules, hends, hname, hshared, hkey, hapart, ?_, hstatus⟩
  exact modules_answer_to_own_names alikeScripts (by simp [hmodules]) (by simp [hmodules]) hshared
    hkey hapart

/-- A file in a directory whose name ends in a colon, and a module that imports it. -/
def colonDirectory : List FileFacts :=
  [{ path := ⟨"a:/b.rs"⟩, language := .rust },
    { path := ⟨"main.rs"⟩, language := .rust
      imports := [{ target := "a:::b", name := .whole, localName := "b" }] }]

/-- Without the condition on colons a module may not be found under its own name: the name is cut
at the first two of three colons. -/
theorem own_name_cut_inside_segment :
    ∃ t importer, (Tables.ofFiles colonDirectory).modules = [t, importer] ∧
      t.key = ["a:", "b"] ∧ t.ownName = "a:::b" ∧
      importer.language.ecosystem = t.language.ecosystem ∧
      Spellable t.language.ecosystem t.key ∧
      targetSegments t.ownName importer.language = ["a", ":b"] ∧
      (Tables.ofFiles colonDirectory).linkImports.imports.map (·.status) = [.external] := by
  rw [Tables.ofFiles_of_ordered (by decide) (by decide)]
  exact ⟨_, _, rfl, by decide +kernel⟩

end CodeAtlas
