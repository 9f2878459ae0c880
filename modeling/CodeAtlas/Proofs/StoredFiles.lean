import CodeAtlas.Proofs.Directories
import CodeAtlas.Unit.Scan

/-!
# Stored files

In a well-formed directory the names stand in their order, here and at every level below, and each of
them can be the name of an entry: it is no step of a path and holds no slash. Directories that are
built from the paths of files are well formed. In such a directory the names that lead down to a file
spell a path, and following this path from the working directory finds the file again, whatever the
path of the directory looks like. So what a walk comes to can be read.
-/

namespace CodeAtlas

/-- A name that an entry of a directory can have. -/
structure IsEntryName (name : String) : Prop where
  nonempty : name ≠ ""
  notCurrent : name ≠ "."
  notParent : name ≠ ".."
  slashless : Text.contains "/" name = false

/-- The entries of a directory stand in the order of their names, at every level. -/
inductive DirectoryEntry.WellFormed : DirectoryEntry → Prop
  | file (file : StoredFile) : WellFormed (.file file)
  | directory {entries : List (String × DirectoryEntry)}
      (sorted : entries.Pairwise fun a b => a.1 < b.1) (names : ∀ e ∈ entries, IsEntryName e.1)
      (below : ∀ e ∈ entries, WellFormed e.2) : WellFormed (.directory entries)

namespace Directory

/-- The names of a directory stand in their order, and so do those of all directories below. -/
def WellFormed (dir : Directory) : Prop := (DirectoryEntry.directory dir).WellFormed

variable {dir : Directory} {name : String} {entry : DirectoryEntry} {file : StoredFile}

namespace WellFormed

/-- The names of a directory stand in their order. -/
theorem sorted (h : dir.WellFormed) : dir.Pairwise fun a b => a.1 < b.1 := by
  cases h
  assumption

/-- The names of a directory are names of entries. -/
theorem names (h : dir.WellFormed) : ∀ e ∈ dir, IsEntryName e.1 := by
  cases h
  assumption

/-- The entries of a directory are well-formed. -/
theorem below (h : dir.WellFormed) : ∀ e ∈ dir, e.2.WellFormed := by
  cases h
  assumption

/-- An entry is found under its name. -/
theorem lookup_eq (h : dir.WellFormed) (hentry : (name, entry) ∈ dir) :
    dir.lookup name = some entry := by
  obtain ⟨earlier, later, rfl⟩ := List.append_of_mem hentry
  refine List.lookup_eq_some_iff.mpr ⟨earlier, later, rfl, fun e he => bne_iff_ne.mpr ?_⟩
  have hless : e.1 < name := (List.pairwise_append.mp h.sorted).2.2 e he _ List.mem_cons_self
  rintro rfl
  exact String.lt_irrefl _ hless

end WellFormed

/-! ### Building directories -/

/-- What is found under a name is an entry. -/
theorem mem_of_lookup (h : dir.lookup name = some entry) : (name, entry) ∈ dir := by
  obtain ⟨earlier, later, rfl, -⟩ := List.lookup_eq_some_iff.mp h
  simp

/-- Putting an entry in its place adds it and no other. -/
theorem mem_of_mem_put {e : String × DirectoryEntry} (h : e ∈ put name entry dir) :
    e = (name, entry) ∨ e ∈ dir := by
  fun_induction put name entry dir with
  | case1 => exact .inl (List.mem_singleton.mp h)
  | case2 e' rest => exact (List.mem_cons.mp h).imp_right (List.mem_cons_of_mem _)
  | case3 => exact List.mem_cons.mp h
  | case4 other e' rest hne hless ih =>
    rcases List.mem_cons.mp h with rfl | hrest
    · exact .inr List.mem_cons_self
    · exact (ih hrest).imp_right (List.mem_cons_of_mem _)

/-- Putting an entry in its place keeps the order. -/
theorem sorted_put (h : dir.Pairwise fun a b => a.1 < b.1) :
    (put name entry dir).Pairwise fun a b => a.1 < b.1 := by
  fun_induction put name entry dir with
  | case1 => exact List.pairwise_singleton _ _
  | case2 e' rest =>
    obtain ⟨hfirst, hrest⟩ := List.pairwise_cons.mp h
    exact List.pairwise_cons.mpr ⟨hfirst, hrest⟩
  | case3 other e' rest hne hless =>
    refine List.pairwise_cons.mpr ⟨fun e he => ?_, h⟩
    rcases List.mem_cons.mp he with rfl | he
    · exact hless
    · exact String.lt_trans hless ((List.pairwise_cons.mp h).1 e he)
  | case4 other e' rest hne hless ih =>
    obtain ⟨hfirst, hrest⟩ := List.pairwise_cons.mp h
    refine List.pairwise_cons.mpr ⟨fun e he => ?_, ih hrest⟩
    rcases mem_of_mem_put he with rfl | he
    · exact lt_of_le_of_ne (not_lt.mp hless) (Ne.symm hne)
    · exact hfirst e he

/-- The empty directory is well-formed. -/
theorem wellFormed_nil : WellFormed [] :=
  .directory .nil (List.forall_mem_nil _) (List.forall_mem_nil _)

namespace WellFormed

/-- Putting an entry into a directory keeps it well-formed. -/
theorem put (h : dir.WellFormed) (hname : IsEntryName name) (hentry : entry.WellFormed) :
    (dir.put name entry).WellFormed := by
  refine .directory (sorted_put h.sorted) (fun e he => ?_) fun e he => ?_
  · rcases mem_of_mem_put he with rfl | he
    · exact hname
    · exact h.names e he
  · rcases mem_of_mem_put he with rfl | he
    · exact hentry
    · exact h.below e he

/-- The directory below a name is well-formed. -/
theorem subdirectory (h : dir.WellFormed) (name : String) : (dir.subdirectory name).WellFormed := by
  rw [Directory.subdirectory]
  split
  · rename_i entries hlookup
    exact h.below _ (mem_of_lookup hlookup)
  · exact wellFormed_nil

/-- Making directories along names keeps a directory well formed. -/
theorem addDirectory {names : List String} (h : dir.WellFormed)
    (hnames : ∀ n ∈ names, IsEntryName n) : (addDirectory names dir).WellFormed := by
  induction names generalizing dir with
  | nil => exact h
  | cons name rest ih =>
    obtain ⟨hname, hrest⟩ := List.forall_mem_cons.mp hnames
    exact h.put hname (ih (h.subdirectory name) hrest)

/-- Storing a file under names keeps a directory well formed. -/
theorem addFile {names : List String} (h : dir.WellFormed) (hnames : ∀ n ∈ names, IsEntryName n)
    (file : StoredFile) : (addFile file names dir).WellFormed := by
  fun_induction Directory.addFile file names dir with
  | case1 => exact h
  | case2 name dir => exact h.put (hnames name List.mem_cons_self) (.file file)
  | case3 name rest dir hmore ih =>
    obtain ⟨hname, hrest⟩ := List.forall_mem_cons.mp hnames
    exact h.put hname (ih (h.subdirectory name) hrest)

end WellFormed

/-! ### Following names -/

/-- Names lead from a directory down to a file. -/
inductive Holds : Directory → List String → StoredFile → Prop
  | inside {dir : Directory} {name : String} {file : StoredFile}
      (hentry : (name, .file file) ∈ dir) : Holds dir [name] file
  | deeper {dir inner : Directory} {name : String} {names : List String} {file : StoredFile}
      (hentry : (name, .directory inner) ∈ dir) (hrest : Holds inner names file) :
      Holds dir (name :: names) file

variable {names : List String} {trail : Trail}

/-- The names that lead to a file are names of entries, and there is at least one. -/
theorem Holds.isEntryName (h : Holds dir names file) (hdir : dir.WellFormed) :
    names ≠ [] ∧ ∀ n ∈ names, IsEntryName n := by
  induction h with
  | inside hentry => exact ⟨List.cons_ne_nil _ _, by simpa using hdir.names _ hentry⟩
  | deeper hentry _ ih =>
    obtain ⟨-, hrest⟩ := ih (hdir.below _ hentry)
    exact ⟨List.cons_ne_nil _ _, List.forall_mem_cons.mpr ⟨hdir.names _ hentry, hrest⟩⟩

/-- A path is followed in two parts. -/
theorem follow_append (components rest : List Path.Component) (trail : Trail) :
    follow (components ++ rest) trail = (follow components trail).bind (follow rest) := by
  induction components generalizing trail with
  | nil => rfl
  | cons component components ih =>
    cases component with
    | root => rfl
    | current => exact ih trail
    | parent =>
      match trail with
      | [] | [_] => rfl
      | _ :: outer :: more => exact ih (outer :: more)
    | name name =>
      match trail with
      | [] => rfl
      | (_, dir) :: outer =>
        simp only [List.cons_append, follow]
        split
        · exact ih _
        · rfl

/-- Following a path leads through well-formed directories. -/
theorem wellFormed_of_follow {components : List Path.Component} {last : Trail}
    (h : follow components trail = some last) (htrail : ∀ level ∈ trail, level.2.WellFormed) :
    ∀ level ∈ last, level.2.WellFormed := by
  fun_induction follow components trail with
  | case1 trail => exact Option.some.inj h ▸ htrail
  | case2 => cases h
  | case3 trail rest ih => exact ih h htrail
  | case4 rest head outer more ih =>
    exact ih h fun level hlevel => htrail level (List.mem_cons_of_mem _ hlevel)
  | case5 => cases h
  | case6 => cases h
  | case7 rest name n dir outer inner hlookup ih =>
    refine ih h (List.forall_mem_cons.mpr ⟨?_, htrail⟩)
    exact (htrail _ List.mem_cons_self).below _ (mem_of_lookup hlookup)
  | case8 => cases h

/-- Following the names that lead to a file ends in the directory that holds it. -/
theorem Holds.exists_follow (h : Holds dir names file) (hdir : dir.WellFormed) (n : String)
    (outer : Trail) :
    ∃ front last m inner more, names = front ++ [last] ∧
      follow (front.map .name) ((n, dir) :: outer) = some ((m, inner) :: more) ∧
      inner.file? last = some file := by
  induction h generalizing n outer with
  | @inside dir name file hentry =>
    refine ⟨[], name, n, dir, outer, rfl, rfl, ?_⟩
    rw [file?, hdir.lookup_eq hentry]
  | @deeper dir inner name names file hentry _ ih =>
    obtain ⟨front, last, m, holder, more, rfl, hfollow, hfile⟩ :=
      ih (hdir.below _ hentry) name ((n, dir) :: outer)
    refine ⟨name :: front, last, m, holder, more, rfl, ?_, hfile⟩
    simp only [List.map_cons, follow, hdir.lookup_eq hentry]
    exact hfollow

end Directory

namespace Path

variable {p root : Path} {names pieces : List String}

/-- The names of a path can be names of entries. -/
theorem isEntryName_of_mem {name : String} (h : name ∈ namesOf p.components) : IsEntryName name := by
  rw [p.namesOf_components] at h
  obtain ⟨hpiece, hplain⟩ := List.mem_filter.mp h
  simp only [Bool.and_eq_true, decide_eq_true_eq] at hplain
  exact ⟨hplain.1.1, hplain.1.2, hplain.2, Text.contains_of_mem_splitChar rfl hpiece⟩

/-! ### Names below a root -/

/-- The components do not depend on where the first piece begins. -/
theorem map_component_stepsOf (first : Bool) (start other : Nat) (pieces : List String) :
    (stepsOf first start pieces).map (·.component) =
      (stepsOf first other pieces).map (·.component) := by
  induction pieces generalizing first start other with
  | nil => rfl
  | cons piece pieces ih =>
    rw [stepsOf, stepsOf]
    cases component? first piece with
    | none => exact ih false _ _
    | some c => exact congrArg (c :: ·) (ih false _ _)

/-- Behind other pieces no `.` counts. -/
theorem map_component_stepsOf_append (first : Bool) (start : Nat) (hpieces : pieces ≠ [])
    (more : List String) :
    (stepsOf first start (pieces ++ more)).map (·.component) =
      (stepsOf first start pieces).map (·.component) ++
        (stepsOf false 0 more).map (·.component) := by
  induction pieces generalizing first start with
  | nil => exact absurd rfl hpieces
  | cons piece pieces ih =>
    have hrest (start : Nat) : (stepsOf false start (pieces ++ more)).map (·.component) =
        (stepsOf false start pieces).map (·.component) ++
          (stepsOf false 0 more).map (·.component) := by
      by_cases hnil : pieces = []
      · rw [hnil]
        exact map_component_stepsOf false start 0 more
      · exact ih false start hnil
    rw [List.cons_append, stepsOf, stepsOf]
    cases component? first piece with
    | none => exact hrest _
    | some c => exact congrArg (c :: ·) (hrest _)

/-- The components of names of entries are these names. -/
theorem map_component_stepsOf_names (h : ∀ n ∈ names, IsEntryName n) (first : Bool) (start : Nat) :
    (stepsOf first start names).map (·.component) = names.map .name := by
  induction names generalizing first start with
  | nil => rfl
  | cons name names ih =>
    obtain ⟨hname, hnames⟩ := List.forall_mem_cons.mp h
    rw [stepsOf, component?, if_neg hname.nonempty, if_neg hname.notCurrent, if_neg hname.notParent]
    exact congrArg _ (ih hnames false _)

/-- A path that starts at the root has an empty piece in front. -/
theorem head?_pieces_of_isAbsolute (h : p.isAbsolute = true) :
    (Text.splitChar '/' p.text).head? = some "" := by
  obtain ⟨chars, hchars⟩ := List.head?_eq_some_iff.mp ((isAbsolute_iff p).mp h)
  rw [Text.splitChar, Text.splitBy, hchars, Text.Chars.splitBy, if_pos (by decide)]
  rfl

/-- The path that names spell has these pieces and does not start at the root. -/
theorem pieces_joinWith (hnonempty : names ≠ []) (hnames : ∀ n ∈ names, IsEntryName n) :
    Text.splitChar '/' (Text.joinWith "/" names) = names ∧
      (Path.mk (Text.joinWith "/" names)).isAbsolute = false := by
  have hpieces : Text.splitChar '/' (Text.joinWith "/" names) = names :=
    Text.splitChar_joinWith rfl hnonempty fun n hn => (hnames n hn).slashless
  refine ⟨hpieces, Bool.eq_false_iff.mpr fun habsolute => ?_⟩
  have hhead := head?_pieces_of_isAbsolute habsolute
  rw [hpieces] at hhead
  exact (hnames "" (List.mem_of_head? hhead)).nonempty rfl

/-- The names that spell a path are the names of the path. -/
theorem namesOf_joinWith (hnonempty : names ≠ []) (hnames : ∀ n ∈ names, IsEntryName n) :
    namesOf (Path.mk (Text.joinWith "/" names)).components = names := by
  rw [namesOf_components, (pieces_joinWith hnonempty hnames).1]
  refine List.filter_eq_self.mpr fun n hn => ?_
  simp [(hnames n hn).nonempty, (hnames n hn).notCurrent, (hnames n hn).notParent]

/-- The pieces of a path below a root are those of the root, with no empty one behind them, and then
the names. -/
theorem exists_pieces_join (hroot : root.text ≠ "") (hnonempty : names ≠ [])
    (hnames : ∀ n ∈ names, IsEntryName n) :
    ∃ front, front ≠ [] ∧
      Text.splitChar '/' (root.join ⟨Text.joinWith "/" names⟩).text = front ++ names ∧
      (Text.splitChar '/' root.text = front ∨ Text.splitChar '/' root.text = front ++ [""]) ∧
      ∃ more, (root.join ⟨Text.joinWith "/" names⟩).text = root.text ++ more := by
  obtain ⟨hpieces, hrelative⟩ := pieces_joinWith hnonempty hnames
  have hslash : "/" = String.singleton '/' := rfl
  have hsome (s : String) : Text.splitChar '/' s ≠ [] := by
    intro hnil
    exact Text.Chars.splitBy_ne_nil _ _ (List.map_eq_nil_iff.mp hnil)
  rw [join, hrelative, if_neg Bool.false_ne_true]
  cases hends : Text.endsWith "/" root.text with
  | true =>
    obtain ⟨before, hbefore⟩ := Text.exists_of_endsWith hends
    refine ⟨Text.splitChar '/' before, hsome before, ?_, .inr ?_, Text.joinWith "/" names, ?_⟩
    · rw [Bool.or_true, if_pos rfl, hbefore, Text.splitChar_append hslash, hpieces]
    · rw [hbefore, ← String.append_empty (s := before ++ "/"), Text.splitChar_append hslash]
      rfl
    · rw [Bool.or_true, if_pos rfl]
  | false =>
    have hneither : (decide (root.text = "") || false) ≠ true := by simpa using hroot
    refine ⟨Text.splitChar '/' root.text, hsome root.text, ?_, .inl rfl, "/" ++ Text.joinWith "/" names,
      ?_⟩
    · rw [if_neg hneither, Text.splitChar_append hslash, hpieces]
    · rw [if_neg hneither, String.append_assoc]

/-- The components of a path below a root are those of the root and then the names. -/
theorem components_join (hroot : root.text ≠ "") (hrelative : root.isAbsolute = false)
    (hnonempty : names ≠ []) (hnames : ∀ n ∈ names, IsEntryName n) :
    (root.join ⟨Text.joinWith "/" names⟩).components = root.components ++ names.map .name := by
  obtain ⟨front, hfront, hpieces, hown, more, htext⟩ :=
    exists_pieces_join hroot hnonempty hnames
  have hstays : (root.join ⟨Text.joinWith "/" names⟩).isAbsolute = false := by
    rw [Bool.eq_false_iff, Ne, isAbsolute_iff, htext, String.toList_append,
      List.head?_append_of_ne_nil _ (mt String.toList_eq_nil_iff.mp hroot), ← isAbsolute_iff]
    exact Bool.eq_false_iff.mp hrelative
  have hfrontOnly : root.components = (stepsOf true 0 front).map (·.component) := by
    rw [components, steps, hrelative, if_neg Bool.false_ne_true]
    rcases hown with hown | hown
    · rw [hown]
    · rw [hown, map_component_stepsOf_append true 0 hfront]
      exact List.append_nil _
  rw [components, steps, hstays, if_neg Bool.false_ne_true, hpieces,
    map_component_stepsOf_append true 0 hfront, map_component_stepsOf_names hnames, hfrontOnly]

end Path

namespace Directory

/-! ### Described directories -/

/-- Store a file at a path, or make a directory there. -/
def addEntry (dir : Directory) (path : Path) : Option StoredFile → Directory
  | some file => dir.addFile file (Path.namesOf path.components)
  | none => dir.addDirectory (Path.namesOf path.components)

/-- The directory made of the entries at some paths. -/
def ofEntries (entries : List (Path × Option StoredFile)) : Directory :=
  entries.foldl (fun dir entry => dir.addEntry entry.1 entry.2) []

/-- A directory that is made of entries at paths is well formed. -/
theorem wellFormed_ofEntries (entries : List (Path × Option StoredFile)) :
    (ofEntries entries).WellFormed := by
  have hadd (dir : Directory) (h : dir.WellFormed) (path : Path) (stored : Option StoredFile) :
      (dir.addEntry path stored).WellFormed := by
    cases stored with
    | none => exact h.addDirectory fun _ => Path.isEntryName_of_mem
    | some file => exact h.addFile (fun _ => Path.isEntryName_of_mem) file
  have hall (dir : Directory) (h : dir.WellFormed) :
      (entries.foldl (fun dir entry => dir.addEntry entry.1 entry.2) dir).WellFormed := by
    induction entries generalizing dir with
    | nil => exact h
    | cons entry entries ih => exact ih _ (hadd dir h entry.1 entry.2)
  exact hall [] wellFormed_nil

/-! ### Finding files again -/

variable {working dir : Directory} {root : Path} {names : List String} {file : StoredFile}

/-- Only a relative path that is not empty leads to a directory. -/
theorem locate?_eq_some {trail : Trail} (h : working.locate? root = some trail) :
    root.text ≠ "" ∧ root.isAbsolute = false ∧
      follow root.components [("", working)] = some trail := by
  rw [locate?] at h
  split at h
  · cases h
  · rename_i hnonempty
    refine ⟨hnonempty, Bool.eq_false_iff.mpr fun habsolute => ?_, h⟩
    rw [Path.components, Path.steps, if_pos habsolute] at h
    cases h

/-- A path whose last piece is the name of an entry does not end as only that of a directory can. -/
theorem endsAsDirectory_eq_false {p : Path} {last : String} (hname : IsEntryName last)
    (h : (Text.splitChar '/' p.text).getLast? = some last) : endsAsDirectory p = false := by
  have hslash : "/" = String.singleton '/' := rfl
  have hnot (tail : String) (htail : tail = "" ∨ tail = ".") :
      Text.endsWith ("/" ++ tail) p.text = false := by
    refine Bool.eq_false_iff.mpr fun hends => ?_
    obtain ⟨before, hbefore⟩ := Text.exists_of_endsWith hends
    have hpiece : Text.splitChar '/' tail = [tail] := by
      rcases htail with rfl | rfl <;> decide
    rw [hbefore, ← String.append_assoc, Text.splitChar_append hslash, hpiece,
      List.getLast?_concat] at h
    rcases htail with rfl | rfl
    · exact hname.nonempty (Option.some.inj h).symm
    · exact hname.notCurrent (Option.some.inj h).symm
  rw [endsAsDirectory]
  exact Bool.or_eq_false_iff.mpr ⟨hnot "" (.inl rfl), hnot "." (.inr rfl)⟩

/-- The file that names lead to from a directory is found under the path that they spell below the
path of the directory. -/
theorem fileAt?_join {n : String} {outer : Trail} (hdir : dir.WellFormed)
    (hroot : working.locate? root = some ((n, dir) :: outer)) (h : Holds dir names file) :
    working.fileAt? (root.join ⟨Text.joinWith "/" names⟩) = some file := by
  obtain ⟨hnonempty, hnames⟩ := h.isEntryName hdir
  obtain ⟨hempty, hrelative, hfollowed⟩ := locate?_eq_some hroot
  obtain ⟨front, last, m, holder, more, rfl, hfollow, hfile⟩ := h.exists_follow hdir n outer
  obtain ⟨pieces, -, hpieces, -⟩ := Path.exists_pieces_join hempty hnonempty hnames
  have hends : endsAsDirectory (root.join ⟨Text.joinWith "/" (front ++ [last])⟩) = false := by
    refine endsAsDirectory_eq_false (hnames last (by simp)) ?_
    rw [hpieces, ← List.append_assoc, List.getLast?_concat]
  have hcomponents : (root.join ⟨Text.joinWith "/" (front ++ [last])⟩).components =
      (root.components ++ front.map .name) ++ [.name last] := by
    rw [Path.components_join hempty hrelative hnonempty hnames, List.map_append, List.append_assoc]
    rfl
  rw [fileAt?, hends, if_neg Bool.false_ne_true, hcomponents, List.getLast?_concat,
    List.dropLast_concat, follow_append, hfollowed]
  simp only [Option.bind_some, hfollow]
  exact hfile

/-- What is held by some entries is held by more of them. -/
theorem Holds.mono {more : Directory} (h : Holds dir names file) (hmore : ∀ e ∈ dir, e ∈ more) :
    Holds more names file := by
  cases h with
  | inside hentry => exact .inside (hmore _ hentry)
  | deeper hentry hrest => exact .deeper (hmore _ hentry) hrest

end Directory

namespace Ignore

/-! ### What a walk comes to -/

variable {versionControl : Bool} {found : Found}

mutual

/-- A walk over entries finds files that they hold, under the names that lead to them. -/
theorem exists_names_of_mem_walkEntries {place : Position} :
    ∀ {entries : Directory}, found ∈ walkEntries versionControl place entries →
      ∃ names, found.names = place.names ++ names ∧ entries.Holds names found.file
  | [], h => nomatch h
  | (name, entry) :: rest, h => by
    rw [walkEntries, List.mem_append] at h
    rcases h with hown | hrest
    · obtain ⟨names, hnames, hholds⟩ := exists_names_of_mem_walkEntry hown
      exact ⟨names, hnames, hholds.mono (by simp)⟩
    · obtain ⟨names, hnames, hholds⟩ := exists_names_of_mem_walkEntries hrest
      exact ⟨names, hnames, hholds.mono fun e he => List.mem_cons_of_mem _ he⟩

/-- So does a walk over one entry. -/
theorem exists_names_of_mem_walkEntry {place : Position} {name : String} :
    ∀ {entry : DirectoryEntry}, found ∈ walkEntry versionControl place name entry →
      ∃ names, found.names = place.names ++ names ∧
        Directory.Holds [(name, entry)] names found.file
  | .file file, h => by
    rw [walkEntry] at h
    split at h
    · cases h
    · obtain rfl := List.mem_singleton.mp h
      exact ⟨[name], rfl, .inside List.mem_cons_self⟩
  | .directory entries, h => by
    rw [walkEntry] at h
    split at h
    · cases h
    · obtain ⟨names, hnames, hholds⟩ := exists_names_of_mem_walkEntries h
      refine ⟨name :: names, ?_, .deeper List.mem_cons_self hholds⟩
      rw [hnames, Position.enter, List.append_assoc]
      rfl

end

/-- A walk finds files of the innermost directory of the trail. -/
theorem holds_of_mem_walk {root : Path} {trail : Directory.Trail}
    (h : found ∈ walk versionControl root trail) :
    ∃ name dir outer, trail = (name, dir) :: outer ∧ dir.Holds found.names found.file := by
  match trail with
  | [] => cases h
  | (name, dir) :: outer =>
    rw [walk] at h
    split at h
    · cases h
    · obtain ⟨names, hnames, hholds⟩ := exists_names_of_mem_walkEntries h
      rw [List.nil_append] at hnames
      exact ⟨name, dir, outer, rfl, hnames ▸ hholds⟩

end Ignore

/-- Names that are texts spell their path. -/
theorem DiskName.path?_map_text (names : List String) :
    path? (names.map .text) = some ⟨Text.joinWith "/" names⟩ := by
  have htexts : (names.map DiskName.text).mapM text? = some names := by
    induction names with
    | nil => rfl
    | cons name names ih => rw [List.map_cons, List.mapM_cons, ih]; rfl
  rw [path?, htexts, Option.map_some]

namespace Directory

variable {working : Directory} {root : Path}

/-- What a walk over a well-formed directory comes to is a file that can be read. -/
theorem exists_read_of_mem_walk (hworking : working.WellFormed) {versionControl : Bool}
    {walked : Option WalkEntry} (h : walked ∈ working.fileSystem.walk root versionControl) :
    ∃ (names : List DiskName) (file : StoredFile), walked = some ⟨names, true⟩ ∧
      working.fileSystem.read root names = .ok file.content ∧
      working.fileSystem.size? root names = some file.content.size ∧
      working.fileSystem.tree root names = file.tree := by
  obtain ⟨found, hfound, rfl⟩ := List.mem_map.mp h
  cases hroot : working.locate? root with
  | none => rw [hroot] at hfound; cases hfound
  | some trail =>
    rw [hroot] at hfound
    obtain ⟨name, dir, outer, rfl, hholds⟩ := Ignore.holds_of_mem_walk hfound
    obtain ⟨-, -, hfollow⟩ := locate?_eq_some hroot
    have hdir : dir.WellFormed :=
      wellFormed_of_follow hfollow (by simpa using hworking) _ List.mem_cons_self
    have hstored : working.storedBelow? root (found.names.map .text) = some found.file := by
      rw [storedBelow?, DiskName.path?_map_text]
      exact fileAt?_join hdir hroot hholds
    refine ⟨_, found.file, rfl, ?_, ?_, ?_⟩
    · simp [fileSystem, hstored]
    · simp [fileSystem, hstored]
    · simp [fileSystem, hstored]

end Directory

end CodeAtlas
