import CodeAtlas.Proofs.Directories
import CodeAtlas.Proofs.PathSpecifiers

/-!
# Scripts under their file names

An import between scripts may spell out the extension of the file. The key of the file and the
segments of the import are then found in two ways: the key loses the extension and a `.d` before it,
the segments lose the extension and the blanks around them. The two agree for every stem but those of
declaration files and those that start with a blank, whatever other dots are in it.
-/

namespace CodeAtlas

variable {stem extension name target : String} {front : List String} {lang : Language}

/-! ### Stems -/

/-- What the key of a script keeps of its stem. -/
def keyStem (stem : String) : String := (Text.dropEnd? ".d" stem).getD stem

/-- What the segments of an import keep of it. -/
def targetStem (stem : String) : String := .ofList (stem.toList.dropWhile Text.isBlank)

/-- The segments for a stem. An index stands for its directory. -/
def stemSegments (stem : String) : List String := if stem = "index" then [] else [stem]

/-- A stem that starts with no blank and is not that of a declaration file. -/
structure IsPlainStem (stem : String) : Prop where
  undeclared : Text.endsWith ".d" stem = false
  unindented : ∀ c ∈ stem.toList.head?, Text.isBlank c = false

/-- Different stems have different segments. -/
theorem stemSegments_inj {other : String} :
    stemSegments stem = stemSegments other ↔ stem = other := by
  constructor
  · intro h
    unfold stemSegments at h
    split at h <;> split at h <;> simp_all
  · rintro rfl
    rfl

/-- What the key keeps of a stem is a beginning of it. -/
theorem keyStem_cases (stem : String) :
    (Text.endsWith ".d" stem = false ∧ keyStem stem = stem) ∨ stem = keyStem stem ++ ".d" := by
  cases hend : Text.dropEnd? ".d" stem with
  | none =>
    left
    rw [keyStem, hend]
    rw [Text.dropEnd?, Option.map_eq_none_iff] at hend
    exact ⟨by rw [Text.endsWith, Text.Chars.endsWith, hend]; rfl, rfl⟩
  | some rest =>
    right
    rw [keyStem, hend]
    obtain ⟨chars, hchars, rfl⟩ := Option.map_eq_some_iff.mp hend
    rw [← String.toList_inj, Text.Chars.dropEnd?_eq_some_iff.mp hchars]
    simp

/-- The key and the segments keep the same of a stem exactly when it is plain. -/
theorem stemSegments_eq_iff (hstem : stem ≠ "") :
    stemSegments (targetStem stem) = stemSegments (keyStem stem) ↔ IsPlainStem stem := by
  obtain ⟨c, chars, hchars⟩ := List.exists_cons_of_ne_nil (mt String.toList_eq_nil_iff.mp hstem)
  rw [stemSegments_inj, targetStem]
  cases hblank : Text.isBlank c with
  | true =>
    refine ⟨fun h => ?_, fun h => ?_⟩
    · -- The key starts with the blank, and the segments do not.
      have hhead : (keyStem stem).toList.head? = some c := by
        rcases keyStem_cases stem with ⟨-, hkey⟩ | hkey
        · rw [hkey, hchars]
          rfl
        · have hsplit := congrArg String.toList hkey
          rw [hchars, String.toList_append] at hsplit
          cases hrest : (keyStem stem).toList with
          | nil =>
            rw [hrest] at hsplit
            obtain rfl : c = '.' := (List.cons.inj hsplit).1
            cases hblank
          | cons d rest =>
            rw [hrest] at hsplit
            rw [(List.cons.inj hsplit).1]
            rfl
      have hdropped := List.head?_dropWhile_not Text.isBlank stem.toList
      rw [← h, String.toList_ofList] at hhead
      rw [hhead] at hdropped
      simp [hblank] at hdropped
    · have hhead := h.unindented c (by rw [hchars]; rfl)
      rw [hblank] at hhead
      cases hhead
  | false =>
    have hkept : String.ofList (stem.toList.dropWhile Text.isBlank) = stem := by
      rw [hchars, List.dropWhile_cons_of_neg (by simp [hblank]), ← hchars, String.ofList_toList]
    rw [hkept]
    refine ⟨fun h => ⟨?_, ?_⟩, fun h => ?_⟩
    · rcases keyStem_cases stem with ⟨hend, -⟩ | hkey
      · exact hend
      · rw [← h] at hkey
        have hlength := congrArg String.length hkey
        rw [String.length_append] at hlength
        simp at hlength
    · intro d hd
      rw [hchars] at hd
      obtain rfl := Option.some.inj hd
      exact hblank
    · rcases keyStem_cases stem with ⟨-, hkey⟩ | hkey
      · exact hkey.symm
      · have hend := h.undeclared
        rw [hkey, Text.endsWith_append] at hend
        cases hend

/-! ### File names -/

/-- The extensions are made of letters. -/
theorem scriptExtensions_chars (h : extension ∈ scriptExtensions) :
    extension ≠ "" ∧ ∀ c ∈ extension.toList, c ≠ '.' ∧ c ≠ '/' ∧ Text.isBlank c = false := by
  have hall : ∀ extension ∈ scriptExtensions, extension ≠ "" ∧
      extension.toList.all (fun c => c != '.' && c != '/' && !Text.isBlank c) = true := by decide
  obtain ⟨hnonempty, hchars⟩ := hall extension h
  refine ⟨hnonempty, fun c hc => ?_⟩
  have hc := List.all_eq_true.mp hchars c hc
  simp only [Bool.and_eq_true, bne_iff_ne, Bool.not_eq_true', and_assoc] at hc
  exact hc

/-- A name with an extension is broken before it. -/
theorem breakAtLast?_extension (h : extension ∈ scriptExtensions) (stem : String) :
    Text.breakAtLast? "." (stem ++ "." ++ extension) = some (stem, extension) := by
  have hchars : (stem ++ "." ++ extension).toList.reverse =
      extension.toList.reverse ++ ['.'] ++ stem.toList.reverse := by simp
  have hbroken : Text.Chars.breakAt? ['.'] (stem ++ "." ++ extension).toList.reverse =
      some (extension.toList.reverse, stem.toList.reverse) := by
    rw [hchars]
    refine Text.Chars.breakAt?_append _ fun before after hcut => ?_
    cases List.eq_nil_or_concat after with
    | inl hnone => exact hnone
    | inr hsome =>
      obtain ⟨rest, d, rfl⟩ := hsome
      rw [List.concat_eq_append, ← List.append_assoc] at hcut
      have hdot : '.' ∈ extension.toList := by
        rw [← List.mem_reverse, (List.append_inj' hcut rfl).1]
        simp
      exact absurd rfl ((scriptExtensions_chars h).2 '.' hdot).1
  rw [Text.breakAtLast?, Text.Chars.breakAtLast?]
  change Option.map _ (Option.map _ (Text.Chars.breakAt? ['.'] _)) = _
  rw [hbroken]
  simp

/-- The stem of a file name with the extension of a script. -/
theorem scriptStem_append (h : extension ∈ scriptExtensions) (stem : String) :
    scriptStem (stem ++ "." ++ extension) = stem := by
  rw [scriptStem, breakAtLast?_extension h]
  exact if_pos (List.contains_iff_mem.mpr h)

/-- A file name is split in front of the extension of a script. -/
theorem splitExtension_append (h : extension ∈ scriptExtensions) (hstem : stem ≠ "") :
    Path.splitExtension (stem ++ "." ++ extension) = (stem, some extension) := by
  rw [Path.splitExtension, breakAtLast?_extension h]
  exact if_neg hstem

/-- Of the blanks around the name only those in front are in the stem. -/
theorem trim_append (h : extension ∈ scriptExtensions) (stem : String) :
    Text.trim (stem ++ "." ++ extension) = targetStem stem ++ "." ++ extension := by
  obtain ⟨hnonempty, hchars⟩ := scriptExtensions_chars h
  have hstart : Text.Chars.trimStart Text.isBlank (stem ++ "." ++ extension).toList =
      stem.toList.dropWhile Text.isBlank ++ '.' :: extension.toList := by
    have hdot : ('.' :: extension.toList).dropWhile Text.isBlank = '.' :: extension.toList :=
      List.dropWhile_cons_of_neg (by decide)
    rw [Text.Chars.trimStart, String.toList_append, String.toList_append, List.append_assoc]
    change (stem.toList ++ '.' :: extension.toList).dropWhile Text.isBlank = _
    rw [List.dropWhile_append, hdot]
    split
    · rename_i hall
      rw [List.isEmpty_iff.mp hall, List.nil_append]
    · rfl
  have hlast : ∀ c ∈ (stem.toList.dropWhile Text.isBlank ++ '.' :: extension.toList).getLast?,
      Text.isBlank c = false := by
    intro c hc
    rw [List.append_cons, List.getLast?_append_of_ne_nil _
      (mt String.toList_eq_nil_iff.mp hnonempty)] at hc
    exact (hchars c (List.mem_of_getLast? hc)).2.2
  have hend : Text.Chars.trimEnd Text.isBlank (_ ++ []) = _ :=
    Text.Chars.trimEnd_append (by simp) hlast
  rw [List.append_nil] at hend
  rw [Text.trim, Text.Chars.trim, hstart, hend, ← String.toList_inj, targetStem]
  simp

/-- A path names a script: in directories with clean names, with a stem and a script extension. -/
structure Path.IsScript (p : Path) (stem extension : String) : Prop where
  name : p.fileName? = some (stem ++ "." ++ extension)
  filled : stem ≠ ""
  extension : extension ∈ scriptExtensions
  trimmed : ∀ d ∈ p.directories, Text.trim d = d

/-- Segments in a row are cleaned one by one. -/
theorem cleanSegments_append (pieces others : List String) :
    cleanSegments (pieces ++ others) = cleanSegments pieces ++ cleanSegments others := by
  rw [cleanSegments, List.map_append, List.filter_append, cleanSegments, cleanSegments]

/-- Empty pieces do not count. -/
theorem cleanSegments_filter (pieces : List String) :
    cleanSegments (pieces.filter (· ≠ "")) = cleanSegments pieces := by
  induction pieces with
  | nil => rfl
  | cons piece pieces ih =>
    by_cases hempty : piece = ""
    · rw [List.filter_cons_of_neg (by simp [hempty]), ih, hempty]
      rfl
    · rw [List.filter_cons_of_pos (by simp [hempty]), ← List.singleton_append, cleanSegments_append,
        ih, ← cleanSegments_append, List.singleton_append]

/-- The segments of a text are the names of the path that it spells, without blanks around them. -/
theorem pathSegments_text (p : Path) :
    pathSegments p.text = cleanSegments (Path.namesOf p.components) := by
  have hnames : Path.namesOf p.components =
      ((Text.splitChar '/' p.text).filter fun s => s ≠ "." && s ≠ "..").filter (· ≠ "") := by
    rw [p.namesOf_components, List.filter_filter]
    refine List.filter_congr fun s _ => ?_
    rw [Bool.and_assoc]
  rw [hnames, cleanSegments_filter, pathSegments]

/-- The segments of an import that ends in a script name. -/
theorem scriptSegments_of_names (hextension : extension ∈ scriptExtensions)
    (h : pathSegments target = cleanSegments (front ++ [stem ++ "." ++ extension]))
    (hfilled : ∀ s ∈ front, s ≠ "") (htrimmed : ∀ s ∈ front, Text.trim s = s) :
    scriptSegments target = front ++ stemSegments (targetStem stem) := by
  have hsegments : pathSegments target = front ++ [targetStem stem ++ "." ++ extension] := by
    rw [h, cleanSegments_append, cleanSegments_eq_self hfilled htrimmed, cleanSegments,
      List.map_singleton, trim_append hextension, List.filter_cons_of_pos]
    · rfl
    · simp
  rw [scriptSegments, hsegments, List.getLast?_concat]
  simp only [scriptStem_append hextension, List.dropLast_concat, stemSegments]
  split
  · rw [List.append_nil]
  · rfl

namespace Path.IsScript

variable {p : Path} (h : p.IsScript stem extension)
include h

/-- The place of a script. -/
theorem segments_ofPath (hlang : lang.isScript = true) :
    (Place.ofPath p lang).segments = p.directories ++ stemSegments (keyStem stem) := by
  have hstem : p.stem?.getD "" = stem := by
    rw [stem?, h.name, Option.map_some, splitExtension_append h.extension h.filled]
    rfl
  have hscript : (Place.ofPath p lang).segments =
      (if keyStem stem = "index" then Place.mk p.directories true
        else ⟨p.directories ++ [keyStem stem], false⟩).segments := by
    rcases Language.eq_of_isScript hlang with rfl | rfl | rfl <;>
      rw [Place.ofPath, hstem] <;> rfl
  rw [hscript, stemSegments]
  split
  · rw [List.append_nil]
  · rfl

/-- The segments of its path as a target. -/
theorem targetSegments_text (hlang : lang.isScript = true) :
    targetSegments p.text lang = p.directories ++ stemSegments (targetStem stem) := by
  have hfilled : ∀ d ∈ p.directories, d ≠ "" := by
    intro d hd
    have hmem : d ∈ namesOf p.components := by
      rw [namesOf_eq h.name]
      exact List.mem_append_left _ hd
    rw [p.namesOf_components, List.mem_filter] at hmem
    rintro rfl
    simp at hmem
  have hsegments : scriptSegments p.text = p.directories ++ stemSegments (targetStem stem) := by
    refine scriptSegments_of_names h.extension ?_ hfilled h.trimmed
    rw [pathSegments_text, namesOf_eq h.name]
  rcases Language.eq_of_isScript hlang with rfl | rfl | rfl <;> exact hsegments

/-- Its name is no step and holds no slash. -/
theorem name_plain : stem ++ "." ++ extension ≠ "." ∧ stem ++ "." ++ extension ≠ ".." ∧
    Text.contains "/" (stem ++ "." ++ extension) = false := by
  have hmem : stem ++ "." ++ extension ∈ namesOf p.components := by
    rw [namesOf_eq h.name]
    simp
  rw [p.namesOf_components] at hmem
  obtain ⟨hpiece, hplain⟩ := List.mem_filter.mp hmem
  have hfree : Text.contains "/" (stem ++ "." ++ extension) = false :=
    Text.contains_of_mem_splitChar rfl hpiece
  simp only [Bool.and_eq_true, decide_eq_true_eq] at hplain
  exact ⟨hplain.1.2, hplain.2, hfree⟩

/-- The segments of a target that names it from its own directory. -/
theorem targetSegments_name (hlang : lang.isScript = true) :
    targetSegments ("./" ++ (stem ++ "." ++ extension)) lang = stemSegments (targetStem stem) := by
  obtain ⟨hdot, hup, hfree⟩ := h.name_plain
  have hslash : "/" = String.singleton '/' := rfl
  have hpieces : Text.splitChar '/' (Text.joinWith "/" [".", stem ++ "." ++ extension]) =
      [".", stem ++ "." ++ extension] :=
    Text.splitChar_joinWith hslash (by simp) (by simpa using ⟨by decide, hfree⟩)
  have hsegments : scriptSegments ("./" ++ (stem ++ "." ++ extension)) =
      [] ++ stemSegments (targetStem stem) := by
    refine scriptSegments_of_names h.extension ?_ (by simp) (by simp)
    change cleanSegments
      ((Text.splitChar '/' (Text.joinWith "/" [".", stem ++ "." ++ extension])).filter _) = _
    rw [hpieces, List.filter_cons_of_neg (by simp), List.filter_cons_of_pos (by simp [hdot, hup])]
    rfl
  rcases Language.eq_of_isScript hlang with rfl | rfl | rfl <;> exact hsegments

/-- Such a target has depth one. -/
theorem pathDepth_name : pathDepth ("./" ++ (stem ++ "." ++ extension)) = 1 := by
  obtain ⟨-, hup, hfree⟩ := h.name_plain
  have hdropped : Text.dropStart? "./" ("./" ++ (stem ++ "." ++ extension)) =
      some (stem ++ "." ++ extension) :=
    dropStart?_dot_eq_some_iff.mpr rfl
  have hups := leadingUps_eq_self (ne_append_slash hfree "..")
  simp only [pathDepth, hdropped, Option.getD_some, hups, String.ofList_toList, if_neg hup]
  rfl

end Path.IsScript

namespace Tables

variable {tables : Tables} {importer file : Module} {e : ImportEdge}

/-- Every module has the place of its path. -/
theorem ofFiles_placed (files : List FileFacts) :
    ∀ m ∈ (ofFiles files).modules, m.place = .ofPath m.path m.language := by
  intro m hm
  obtain ⟨facts, -, hcarries⟩ := exists_mem_of_forall₂ (collected_ofFiles files).modules.flip hm
  rw [hcarries.place, hcarries.path, hcarries.language]

/-- How an import turns out that names a script from its own directory. -/
structure NamesScript (tables : Tables) (importer file : Module) (stem : String) (e : ImportEdge) :
    Prop where
  /-- With a plain stem it leads to the first module with the key of the script. -/
  found : IsPlainStem stem → ∃ first, IsLeast (Module.id '' tables.modulesAt importer file.key) first ∧
    (e.status, e.binding) = tables.outcomeAt first e.name
  /-- With any other it looks for another key. -/
  missed : ¬ IsPlainStem stem → ∃ key, key ≠ file.key ∧ tables.LooksFor importer key e

/-- An import that goes down from the directory of a script along the segments of its name. -/
theorem namesScript_of_looksFor (hnumbered : Numbered Module.id tables.modules)
    (hfile : file ∈ tables.modules)
    (hshared : file.language.ecosystem = importer.language.ecosystem)
    (hplace : file.place = .ofPath file.path file.language)
    (hscript : file.path.IsScript stem extension) (hlang : file.language.isScript = true)
    (hlooks : tables.LooksFor importer (file.path.directories ++ stemSegments (targetStem stem)) e) :
    tables.NamesScript importer file stem e := by
  have hkey : file.key = file.path.directories ++ stemSegments (keyStem stem) := by
    rw [Module.key, if_neg, hplace, hscript.segments_ofPath hlang]
    intro hgo
    rw [hgo] at hlang
    cases hlang
  constructor
  · intro hplain
    rw [(stemSegments_eq_iff hscript.filled).mpr hplain, ← hkey] at hlooks
    have hself : file ∈ tables.modulesAt importer file.key := ⟨hfile, hshared, rfl⟩
    have hfinds := findsLeast_moduleAt? hnumbered importer file.key
    cases hfound : tables.moduleAt? importer.language file.key with
    | some first =>
      have hleast := (hfinds first).mp hfound
      exact ⟨first, hleast, hlooks.found first hleast⟩
    | none =>
      rw [hfinds.eq_none_iff.mp hfound] at hself
      cases hself
  · intro hother
    refine ⟨_, fun heq => hother ?_, hlooks⟩
    rw [hkey] at heq
    exact (stemSegments_eq_iff hscript.filled).mp (List.append_cancel_left heq)

end Tables

/-- A script that is imported by its file name is found, as the first module with its key, when its
stem is plain. Otherwise the import looks for another key than that of the script. -/
theorem scripts_are_found_by_file_name {p : Path} (hscript : p.IsScript stem extension) :
    (∀ lang : Language, lang.isScript = true →
      (targetSegments p.text lang = (Place.ofPath p lang).segments ↔ IsPlainStem stem)) ∧
    ∀ (files : List FileFacts), ∀ file ∈ (Tables.ofFiles files).modules, file.path = p →
      file.language.isScript = true →
      ∀ (module : Nat) (doc : Document) (path : Path),
        (orderedFiles files)[module]? = some (doc.facts path) → doc.language.isScript = true →
        path.directories = p.directories →
        ∀ (q : List Nat) (t : Tree), doc.tree.Leads q t → t.kind ≠ "mod_item" →
          ∀ form ∈ doc.importsAt q t, form.target = "./" ++ (stem ++ "." ++ extension) →
            ∃ importer e base, (Tables.ofFiles files).modules[module]? = some importer ∧
              importer.path = path ∧ e ∈ (Tables.ofFiles files).linkImports.imports ∧
              e.Copies ⟨module, base, form.placed (doc.extent t)⟩ ∧
              (Tables.ofFiles files).NamesScript importer file stem e := by
  constructor
  · intro lang hlang
    rw [hscript.targetSegments_text hlang, hscript.segments_ofPath hlang, List.append_cancel_left_eq,
      stemSegments_eq_iff hscript.filled]
  · rintro files file hfile rfl hlang module doc path hplaced hdoc hdirectories q t hnode hkind form
      hform htarget
    have hdepth : form.depth = 0 + 1 := by
      rw [Document.depth_of_mem_ownImports_script hdoc hkind hform, htarget, hscript.pathDepth_name]
    have hfamily : doc.language.isCFamily = false := by
      rcases Language.eq_of_isScript hdoc with hlang | hlang | hlang <;> rw [hlang] <;> rfl
    obtain ⟨importer, e, base, himporter, hpath, hlanguage, he, hcopies, hgoes⟩ :=
      exists_edge_goesUp hplaced hnode hform hfamily hdepth
    refine ⟨importer, e, base, himporter, hpath, he, hcopies, ?_⟩
    have hpackage : importer.path.package importer.language = file.path.directories := by
      rw [hpath, hlanguage, ← hdirectories]
      rcases Language.eq_of_isScript hdoc with hlang | hlang | hlang <;> rw [hlang] <;> rfl
    have hlooks := hgoes.inside _ (by rw [hpackage]; rfl)
    rw [htarget, hscript.targetSegments_name hdoc] at hlooks
    refine Tables.namesScript_of_looksFor (Tables.ofFiles_importers files).1 hfile ?_
      (Tables.ofFiles_placed files file hfile) hscript hlang hlooks
    rw [hlanguage]
    exact (beq_iff_eq.mp hlang).trans (beq_iff_eq.mp hdoc).symm

/-- A script whose stem has a dot, and one beside it that names it. -/
def testedScript : List FileFacts :=
  [{ path := ⟨"src/foo.test.ts"⟩, language := .typeScript },
    (importingScript "./foo.test.ts").facts ⟨"src/main.js"⟩]

/-- It is found. -/
theorem scripts_are_found_by_file_name_dotted :
    (Path.mk "src/foo.test.ts").IsScript "foo.test" "ts" ∧ IsPlainStem "foo.test" ∧
      targetSegments "src/foo.test.ts" .typeScript = ["src", "foo.test"] ∧
      ∃ importer file e first, file ∈ (Tables.ofFiles testedScript).modules ∧
        file.path = ⟨"src/foo.test.ts"⟩ ∧ e ∈ (Tables.ofFiles testedScript).linkImports.imports ∧
        e.target = "./foo.test.ts" ∧
        IsLeast (Module.id '' (Tables.ofFiles testedScript).modulesAt importer file.key) first ∧
        e.status = .resolved first := by
  have hscript : (Path.mk "src/foo.test.ts").IsScript "foo.test" "ts" :=
    ⟨by decide, by decide, by decide, by decide⟩
  have hplain : IsPlainStem "foo.test" := by
    refine ⟨by decide, fun c hc => ?_⟩
    obtain rfl : 'f' = c := Option.some.inj hc
    decide
  have hordered : orderedFiles testedScript = testedScript := by
    rw [orderedFiles, List.mergeSort_of_pairwise (by decide +kernel)]
    rfl
  have hfile : ∃ file ∈ (Tables.ofFiles testedScript).modules,
      file.path = ⟨"src/foo.test.ts"⟩ ∧ file.language = .typeScript := by
    have hget : (orderedFiles testedScript)[0]? =
        some { path := ⟨"src/foo.test.ts"⟩, language := .typeScript } := by
      rw [hordered]
      rfl
    obtain ⟨file, hfile, hcarries⟩ := exists_module_of_file hget
    exact ⟨file, List.mem_of_getElem? hfile, hcarries.path, hcarries.language⟩
  have hstatement : ∃ t form, (importingScript "./foo.test.ts").tree.Leads [0] t ∧
      t.kind ≠ "mod_item" ∧ (importingScript "./foo.test.ts").importsAt [0] t = [form] ∧
      form.target = "./foo.test.ts" ∧ form.name = .whole :=
    ⟨_, _, .child rfl rfl .here, by decide, rfl, by decide +kernel, rfl⟩
  obtain ⟨hsegments, himports⟩ := scripts_are_found_by_file_name hscript
  obtain ⟨file, hfile, hpath, hlanguage⟩ := hfile
  obtain ⟨t, form, hnode, hkind, hforms, htarget, hname⟩ := hstatement
  obtain ⟨importer, e, base, -, -, he, hcopies, hnames⟩ := himports testedScript file hfile hpath
    (by rw [hlanguage]; rfl) 1 (importingScript "./foo.test.ts") ⟨"src/main.js"⟩
    (by rw [hordered]; rfl) rfl (by decide) [0] t hnode hkind form (by simp [hforms]) htarget
  obtain ⟨first, hleast, houtcome⟩ := hnames.found hplain
  refine ⟨hscript, hplain, ?_, importer, file, e, first, hfile, hpath, he,
    hcopies.target.trans htarget, hleast, ?_⟩
  · exact ((hsegments .typeScript rfl).mpr hplain).trans (by decide)
  · have hwhole : e.name = .whole := hcopies.name.trans hname
    rw [hwhole] at houtcome
    exact congrArg Prod.fst houtcome

/-- A declaration file is missed: its key is `types`, and the segments of the import are
`types.d`. -/
theorem declaration_files_are_missed :
    (Path.mk "types.d.ts").IsScript "types.d" "ts" ∧
      (Place.ofPath ⟨"types.d.ts"⟩ .typeScript).segments = ["types"] ∧
      targetSegments "types.d.ts" .typeScript = ["types.d"] ∧
      (Tables.ofFiles
        [(importingScript "./types.d.ts").facts ⟨"main.js"⟩,
          { path := ⟨"types.d.ts"⟩, language := .typeScript }]).linkImports.imports.map
        (fun e => (e.target, e.depth, e.status)) = [("./types.d.ts", 1, .external)] := by
  refine ⟨⟨by decide, by decide, by decide, by decide⟩, by decide, by decide, ?_⟩
  rw [Tables.ofFiles_of_ordered (by decide +kernel) (by decide +kernel)]
  decide +kernel

end CodeAtlas
