import CodeAtlas.Proofs.OwnNames
import CodeAtlas.Proofs.RelativeImports
import Mathlib.Data.List.TakeWhile

/-!
# Path specifiers

A script and a quoted include name a file by its path from the directory of the importing file. Read
as a path, every piece is one step: `.` stays, `..` goes to the directory above, and a name goes
down. An import is read otherwise: the run of `..` at the start, behind at most one `.`, gives its
depth, and from the rest only the names are kept. The two ways end at the same place exactly when no
`..` is left behind that run.
-/

namespace CodeAtlas

variable {s : String} {pieces : List String} {lang : Language}

/-- The languages of scripts. -/
theorem Language.eq_of_isScript (h : lang.isScript = true) :
    lang = .javaScript ∨ lang = .typeScript ∨ lang = .tsx := by
  cases lang <;> simp [isScript, ecosystem] at h ⊢

/-- The languages with includes. -/
theorem Language.eq_of_isCFamily (h : lang.isCFamily = true) : lang = .c ∨ lang = .cpp := by
  cases lang <;> simp [isCFamily, ecosystem] at h ⊢

/-! ### Walking along a path -/

/-- One step from a directory. There is nothing above the root of the unit. -/
def stepAlong (place : List String) (piece : String) : Option (List String) :=
  if piece = "." then some place
  else if piece = ".." then if place = [] then none else some place.dropLast
  else some (place ++ [piece])

/-- Where the pieces of a path lead from a directory. -/
def walk (start pieces : List String) : Option (List String) := pieces.foldlM stepAlong start

/-- The names among the pieces of a path. -/
def plainNames (pieces : List String) : List String :=
  pieces.filter fun s => s ≠ "." && s ≠ ".."

/-- A dot is no name. -/
@[simp] theorem plainNames_dot (pieces : List String) :
    plainNames ("." :: pieces) = plainNames pieces := by simp [plainNames]

/-- A step up is no name. -/
@[simp] theorem plainNames_up (pieces : List String) :
    plainNames (".." :: pieces) = plainNames pieces := by simp [plainNames]

/-- Every other piece is a name. -/
theorem plainNames_of_ne (pieces : List String) (hdot : s ≠ ".") (hup : s ≠ "..") :
    plainNames (s :: pieces) = s :: plainNames pieces := by simp [plainNames, hdot, hup]

/-- A walk takes one piece after the other. -/
theorem walk_cons (start : List String) (piece : String) (pieces : List String) :
    walk start (piece :: pieces) = (stepAlong start piece).bind (walk · pieces) :=
  List.foldlM_cons

/-- Going up step by step. -/
theorem walk_ups (ups : Nat) (start rest : List String) :
    walk start (List.replicate ups ".." ++ rest) = (ancestor? ups start).bind (walk · rest) := by
  induction ups generalizing start with
  | zero => rfl
  | succ ups ih =>
    rw [List.replicate_succ, List.cons_append, walk_cons, ancestor?, stepAlong, if_neg (by decide),
      if_pos rfl]
    by_cases hroot : start = []
    · rw [if_pos hroot, if_pos hroot]
      rfl
    · rw [if_neg hroot, if_neg hroot, Option.bind_some, ih]

/-- What one step can do. -/
theorem stepAlong_cases {place next : List String} {piece : String}
    (h : stepAlong place piece = some next) :
    (piece = "." ∧ next = place) ∨ (piece = ".." ∧ place ≠ [] ∧ next = place.dropLast) ∨
      (piece ≠ "." ∧ piece ≠ ".." ∧ next = place ++ [piece]) := by
  unfold stepAlong at h
  split at h
  · rename_i hdot
    exact .inl ⟨hdot, (Option.some.inj h).symm⟩
  · rename_i hdot
    split at h
    · rename_i hup
      split at h
      · cases h
      · rename_i hroot
        exact .inr (.inl ⟨hup, hroot, (Option.some.inj h).symm⟩)
    · rename_i hup
      exact .inr (.inr ⟨hdot, hup, (Option.some.inj h).symm⟩)

/-- Every name goes down once and every `..` goes up once. -/
theorem length_of_walk {start place : List String} (h : walk start pieces = some place) :
    place.length + pieces.count ".." = start.length + (plainNames pieces).length := by
  induction pieces generalizing start with
  | nil =>
    obtain rfl : start = place := by simpa [walk] using h
    rfl
  | cons piece pieces ih =>
    rw [walk_cons] at h
    obtain ⟨next, hnext, hrest⟩ := Option.bind_eq_some_iff.mp h
    have hlength := ih hrest
    rcases stepAlong_cases hnext with ⟨rfl, rfl⟩ | ⟨rfl, hroot, rfl⟩ | ⟨hdot, hup, rfl⟩
    · rw [plainNames_dot, List.count_cons_of_ne (by decide)]
      exact hlength
    · have hpos := List.length_pos_of_ne_nil hroot
      rw [List.length_dropLast] at hlength
      rw [plainNames_up, List.count_cons_self]
      omega
    · rw [List.length_append, List.length_singleton] at hlength
      rw [plainNames_of_ne pieces hdot hup, List.length_cons, List.count_cons_of_ne hup]
      omega

/-- Without `..` a path leads down along its names. -/
theorem walk_of_no_up (start : List String) (h : ".." ∉ pieces) :
    walk start pieces = some (start ++ plainNames pieces) := by
  induction pieces generalizing start with
  | nil => simp [walk, plainNames]
  | cons piece pieces ih =>
    rw [List.mem_cons, not_or] at h
    obtain ⟨hup, hrest⟩ := h
    rw [walk_cons, stepAlong]
    by_cases hdot : piece = "."
    · rw [if_pos hdot, Option.bind_some, ih start hrest, hdot, plainNames_dot]
    · rw [if_neg hdot, if_neg (Ne.symm hup), Option.bind_some, ih _ hrest,
        plainNames_of_ne pieces hdot (Ne.symm hup), List.append_assoc, List.singleton_append]

/-- A path leads where its names lead exactly when there is no `..` in it. -/
theorem walk_eq_iff (start : List String) :
    some (start ++ plainNames pieces) = walk start pieces ↔ ".." ∉ pieces := by
  constructor
  · intro heq hup
    have hlength := length_of_walk heq.symm
    have hcount := List.count_pos_iff.mpr hup
    rw [List.length_append] at hlength
    omega
  · intro hup
    exact (walk_of_no_up start hup).symm

/-! ### The counted steps -/

/-- The pieces behind one `.` at the start. -/
def behindDot : List String → List String
  | "." :: rest => rest
  | pieces => pieces

/-- The number of `..` at the start of some pieces. -/
def upRun (pieces : List String) : Nat := (pieces.takeWhile (· == "..")).length

/-- A step up in front lengthens the run of steps up. -/
@[simp] theorem upRun_up (pieces : List String) : upRun (".." :: pieces) = upRun pieces + 1 := by
  rw [upRun, List.takeWhile_cons_of_pos rfl]
  rfl

/-- Any other piece in front ends the run. -/
theorem upRun_of_ne (pieces : List String) (hup : s ≠ "..") : upRun (s :: pieces) = 0 := by
  rw [upRun, List.takeWhile_cons_of_neg (by simpa using hup)]
  rfl

/-- The number of steps up that are counted for a specifier: the `..` at its start, behind at most
one `.`. An include counts only those with a piece behind them. -/
def countedUps (lang : Language) (pieces : List String) : Nat :=
  let behind := behindDot pieces
  upRun (if lang.isCFamily then behind.dropLast else behind)

/-- The pieces that are not counted. -/
def uncounted (lang : Language) (pieces : List String) : List String :=
  (behindDot pieces).drop (countedUps lang pieces)

/-- The counted pieces are a run of `..`. -/
theorem behindDot_eq (lang : Language) (pieces : List String) :
    behindDot pieces = List.replicate (countedUps lang pieces) ".." ++ uncounted lang pieces := by
  have hprefix : (if lang.isCFamily then (behindDot pieces).dropLast else behindDot pieces) <+:
      behindDot pieces := by
    split
    · exact List.dropLast_prefix _
    · exact List.prefix_rfl
  have hrun : List.replicate (countedUps lang pieces) ".." <+: behindDot pieces := by
    rw [countedUps, upRun, ← List.eq_replicate_of_mem]
    · exact (List.takeWhile_prefix _).trans hprefix
    · intro s hs
      simpa using List.mem_takeWhile_imp hs
  have hsplit := List.prefix_iff_eq_append.mp hrun
  rw [List.length_replicate] at hsplit
  exact hsplit.symm

/-- One `.` at the start leads nowhere. -/
theorem walk_behindDot (start pieces : List String) :
    walk start (behindDot pieces) = walk start pieces := by
  unfold behindDot
  split
  · rw [walk_cons]
    rfl
  · rfl

/-- A leading dot does not matter to the names. -/
theorem plainNames_behindDot (pieces : List String) :
    plainNames (behindDot pieces) = plainNames pieces := by
  unfold behindDot
  split
  · rw [plainNames_dot]
  · rfl

/-- All names are among the uncounted pieces. -/
theorem plainNames_uncounted (lang : Language) (pieces : List String) :
    plainNames (uncounted lang pieces) = plainNames pieces := by
  rw [← plainNames_behindDot pieces, behindDot_eq lang pieces, plainNames, plainNames,
    List.filter_append]
  simp

/-- A path is walked along its counted steps first. -/
theorem walk_eq_bind (lang : Language) (start pieces : List String) :
    walk start pieces =
      (ancestor? (countedUps lang pieces) start).bind (walk · (uncounted lang pieces)) := by
  rw [← walk_behindDot, behindDot_eq lang pieces, walk_ups]

/-! ### Reading a specifier -/

/-- The piece before the first slash is determined by the text. -/
theorem eq_of_append_slash {t rest others : String} (hs : Text.contains "/" s = false)
    (ht : Text.contains "/" t = false) (h : s ++ "/" ++ rest = t ++ "/" ++ others) : s = t := by
  have hchars : s.toList ++ '/' :: rest.toList = t.toList ++ '/' :: others.toList := by
    simpa using congrArg String.toList h
  have hpieces := congrArg (Text.Chars.splitBy (· == '/')) hchars
  have hslash {piece : String} (hpiece : Text.contains "/" piece = false) :
      ∀ d ∈ piece.toList, (d == '/') = false := Text.not_mem_of_contains_eq_false rfl hpiece
  rw [Text.Chars.splitBy_append_cons _ (hslash hs) rfl,
    Text.Chars.splitBy_append_cons _ (hslash ht) rfl] at hpieces
  exact String.toList_inj.mp (List.cons.inj hpieces).1

/-- A single piece does not start with a piece and a slash. -/
theorem ne_append_slash (hs : Text.contains "/" s = false) (t rest : String) :
    s ≠ t ++ "/" ++ rest := by
  rw [Text.contains_eq_false_iff] at hs
  exact hs t rest

/-- What follows one `.` at the start of a specifier. -/
theorem dropStart?_dot_eq_some_iff {rest : String} :
    Text.dropStart? "./" s = some rest ↔ s = "." ++ "/" ++ rest := by
  rw [Text.dropStart?, Option.map_eq_some_iff]
  constructor
  · rintro ⟨chars, hchars, rfl⟩
    rw [Text.Chars.dropStart?_eq_some_iff] at hchars
    rw [← String.toList_inj, hchars]
    simp
  · intro hs
    refine ⟨rest.toList, ?_, String.ofList_toList⟩
    rw [Text.Chars.dropStart?_eq_some_iff, hs]
    simp

/-- A text whose start is no step up. -/
theorem leadingUps_eq_self (h : ∀ rest, s ≠ ".." ++ "/" ++ rest) :
    leadingUps s.toList = (0, s.toList) := by
  unfold leadingUps
  split
  · rename_i chars hchars
    apply absurd _ (h (.ofList chars))
    rw [← String.toList_inj, hchars]
    simp
  · rfl

/-- A step up is counted, and the rest is read on. -/
theorem leadingUps_up (rest : String) :
    leadingUps (".." ++ "/" ++ rest).toList =
      ((leadingUps rest.toList).1 + 1, (leadingUps rest.toList).2) := by
  simp [leadingUps]

/-- The steps up at the start of some pieces. The last piece is left, whatever it is. -/
theorem leadingUps_joinWith (hpieces : pieces ≠ [])
    (hfree : ∀ s ∈ pieces, Text.contains "/" s = false) :
    leadingUps (Text.joinWith "/" pieces).toList = (upRun pieces.dropLast,
      (Text.joinWith "/" (pieces.drop (upRun pieces.dropLast))).toList) := by
  induction pieces with
  | nil => exact absurd rfl hpieces
  | cons piece pieces ih =>
    obtain ⟨hpiece, hrest⟩ := List.forall_mem_cons.mp hfree
    cases pieces with
    | nil => exact leadingUps_eq_self (ne_append_slash hpiece "..")
    | cons next pieces =>
      rw [List.dropLast_cons_cons]
      by_cases hup : piece = ".."
      · have hbelow := ih (List.cons_ne_nil _ _) hrest
        rw [hup, upRun_up, List.drop_succ_cons]
        exact (leadingUps_up _).trans (by rw [hbelow])
      · rw [upRun_of_ne _ hup, List.drop_zero]
        apply leadingUps_eq_self
        intro rest heq
        exact hup (eq_of_append_slash hpiece (by decide) heq)

/-- The last piece belongs to the steps up at the start when it is one and all others are. -/
theorem upRun_eq (hpieces : pieces ≠ []) :
    upRun pieces =
      if Text.joinWith "/" (pieces.drop (upRun pieces.dropLast)) = ".." then
        upRun pieces.dropLast + 1
      else upRun pieces.dropLast := by
  induction pieces with
  | nil => exact absurd rfl hpieces
  | cons piece pieces ih =>
    cases pieces with
    | nil =>
      change _ = if piece = ".." then 1 else 0
      by_cases hup : piece = ".."
      · rw [hup, if_pos rfl]
        rfl
      · rw [upRun_of_ne _ hup, if_neg hup]
    | cons next pieces =>
      rw [List.dropLast_cons_cons]
      by_cases hup : piece = ".."
      · rw [hup, upRun_up, upRun_up, List.drop_succ_cons, ih (List.cons_ne_nil _ _)]
        split <;> rfl
      · rw [upRun_of_ne _ hup, upRun_of_ne _ hup, List.drop_zero, if_neg]
        exact (ne_append_slash (by decide) piece _).symm

/-- The pieces of a path specifier. A script says that it starts at its directory, and neither an
extension nor `index` stands at the end of its names. -/
structure IsSpecifier (lang : Language) (pieces : List String) : Prop where
  nonempty : pieces ≠ []
  unseparated : ∀ s ∈ pieces, Text.contains "/" s = false
  filled : ∀ s ∈ pieces, s ≠ ""
  trimmed : ∀ s ∈ pieces, Text.trim s = s
  relative : lang.isScript = true → pieces.head? = some "." ∨ pieces.head? = some ".."
  extensionless : lang.isScript = true → ∀ s ∈ (plainNames pieces).getLast?, s ≠ "index" ∧
    ∀ extension ∈ scriptExtensions, Text.endsWith ("." ++ extension) s = false
  unscoped : lang.isCFamily = true → ∀ s ∈ pieces, Text.contains "::" s = false

/-- The text of some pieces behind one `.` at the start, if something stands there. -/
theorem dropStart?_joinWith (hpieces : pieces ≠ [])
    (hfree : ∀ s ∈ pieces, Text.contains "/" s = false) :
    (Text.dropStart? "./" (Text.joinWith "/" pieces)).getD (Text.joinWith "/" pieces) =
      Text.joinWith "/" (if pieces = ["."] then ["."] else behindDot pieces) := by
  obtain ⟨piece, pieces, rfl⟩ := List.exists_cons_of_ne_nil hpieces
  have hpiece := hfree piece List.mem_cons_self
  by_cases hdot : piece = "."
  · subst hdot
    cases pieces with
    | nil => rfl
    | cons next pieces =>
      have hdropped : Text.dropStart? "./" (Text.joinWith "/" ("." :: next :: pieces)) =
          some (Text.joinWith "/" (next :: pieces)) := dropStart?_dot_eq_some_iff.mpr rfl
      rw [hdropped]
      rfl
  · have hkept : Text.dropStart? "./" (Text.joinWith "/" (piece :: pieces)) = none := by
      rw [Option.eq_none_iff_forall_ne_some]
      intro rest hrest
      rw [dropStart?_dot_eq_some_iff] at hrest
      cases pieces with
      | nil => exact ne_append_slash hpiece "." rest hrest
      | cons next pieces => exact hdot (eq_of_append_slash hpiece (by decide) hrest)
    have hbehind : behindDot (piece :: pieces) = piece :: pieces := by
      unfold behindDot
      split
      · rename_i heq
        exact absurd (List.cons.inj heq).1 hdot
      · rfl
    rw [hkept, if_neg (by simp [hdot]), hbehind]
    rfl

namespace IsSpecifier

variable (h : IsSpecifier lang pieces)
include h

/-- Something stands behind one `.` at the start, unless there is nothing else. -/
theorem behindDot_ne_nil (hdot : pieces ≠ ["."]) : behindDot pieces ≠ [] := by
  unfold behindDot
  split
  · intro hrest
    exact hdot (by rw [hrest])
  · exact h.nonempty

/-- The pieces behind a leading dot hold no slash. -/
theorem behindDot_free : ∀ s ∈ behindDot pieces, Text.contains "/" s = false := by
  unfold behindDot
  split
  · exact (List.forall_mem_cons.mp h.unseparated).2
  · exact h.unseparated

/-- The depth of an include is the number of its counted steps, from the directory of its file. -/
theorem includeDepth_eq (hfamily : lang.isCFamily = true) :
    includeDepth (Text.joinWith "/" pieces) = countedUps lang pieces + 1 := by
  rw [includeDepth, dropStart?_joinWith h.nonempty h.unseparated, countedUps, if_pos hfamily]
  by_cases hdot : pieces = ["."]
  · rw [if_pos hdot, hdot]
    rfl
  · rw [if_neg hdot, leadingUps_joinWith (h.behindDot_ne_nil hdot) h.behindDot_free]
    omega

/-- So is the depth of a specifier in a script. -/
theorem pathDepth_eq (hscript : lang.isScript = true) :
    pathDepth (Text.joinWith "/" pieces) = countedUps lang pieces + 1 := by
  have hfamily : lang.isCFamily = false := by
    rcases Language.eq_of_isScript hscript with rfl | rfl | rfl <;> rfl
  rw [countedUps, hfamily, if_neg Bool.false_ne_true]
  by_cases hdot : pieces = ["."]
  · rw [hdot]
    rfl
  · have hne := h.behindDot_ne_nil hdot
    have hups := leadingUps_joinWith hne h.behindDot_free
    -- The depth counts from one because the start is a `.` with something behind it or a `..`.
    have hrelative : (Text.dropStart? "./" (Text.joinWith "/" pieces)).isSome = true ∨
        0 < upRun (behindDot pieces) := by
      obtain ⟨piece, rest, rfl⟩ := List.exists_cons_of_ne_nil h.nonempty
      rcases h.relative hscript with hhead | hhead
      · obtain rfl : piece = "." := Option.some.inj hhead
        obtain ⟨next, rest, rfl⟩ := List.exists_cons_of_ne_nil hne
        left
        exact Option.isSome_of_mem (dropStart?_dot_eq_some_iff.mpr rfl)
      · obtain rfl : piece = ".." := Option.some.inj hhead
        right
        exact (upRun_up rest).symm ▸ Nat.succ_pos _
    simp only [pathDepth, dropStart?_joinWith h.nonempty h.unseparated, if_neg hdot, hups,
      String.ofList_toList, ← upRun_eq hne]
    rw [if_pos, Nat.add_comm]
    rcases hrelative with hrelative | hrelative
    · simp [hrelative]
    · simp [hrelative]

/-- The names of a specifier are its segments. -/
theorem pathSegments_eq : pathSegments (Text.joinWith "/" pieces) = plainNames pieces := by
  have hsplit : Text.splitChar '/' (Text.joinWith "/" pieces) = pieces :=
    Text.splitChar_joinWith rfl h.nonempty h.unseparated
  rw [pathSegments, hsplit]
  apply cleanSegments_eq_self
  · intro s hs
    exact h.filled s (List.mem_of_mem_filter hs)
  · intro s hs
    exact h.trimmed s (List.mem_of_mem_filter hs)

/-- In a script the last name stays as it is. -/
theorem scriptSegments_eq (hscript : lang.isScript = true) :
    scriptSegments (Text.joinWith "/" pieces) = plainNames pieces := by
  rw [scriptSegments, h.pathSegments_eq]
  cases hlast : (plainNames pieces).getLast? with
  | none => exact (List.getLast?_eq_none_iff.mp hlast).symm
  | some last =>
    obtain ⟨hindex, hextension⟩ := h.extensionless hscript last hlast
    simp only [scriptStem_eq_self hextension, if_neg hindex]
    exact List.dropLast_append_getLast? last hlast

/-- The target of a specifier has the names as its segments. -/
theorem targetSegments_eq (hpath : lang.isScript = true ∨ lang.isCFamily = true) :
    targetSegments (Text.joinWith "/" pieces) lang = plainNames pieces := by
  rcases hpath with hscript | hfamily
  · have hsegments := h.scriptSegments_eq hscript
    rcases Language.eq_of_isScript hscript with rfl | rfl | rfl <;> exact hsegments
  · have hcolons : Text.contains "::" (Text.joinWith "/" pieces) = false :=
      Text.contains_joinWith (c := '/') rfl (by decide) (by decide) (h.unscoped hfamily)
    have hsegments := h.pathSegments_eq
    rcases Language.eq_of_isCFamily hfamily with rfl | rfl <;>
      rw [targetSegments, hcolons, if_neg Bool.false_ne_true, hsegments]

end IsSpecifier

/-! ### Statements -/

namespace Document

variable {doc : Document} {t : Tree}

/-- Every import from a module of a script has the depth of its specifier. -/
theorem depth_of_mem_clauseForms {source : String} {part : Tree} {form : ImportForm}
    (h : form ∈ doc.clauseForms source part) : form.depth = pathDepth form.target := by
  unfold clauseForms at h
  split at h
  · rw [List.mem_singleton.mp h]
  · rw [List.mem_singleton.mp h]
  · obtain ⟨pair, _, rfl⟩ := List.mem_map.mp h
    rfl
  · cases h

/-- The depth of a re-export is read off its target. -/
theorem depth_of_mem_exportForms {source : String} {form : ImportForm}
    (h : form ∈ doc.exportForms t source) : form.depth = pathDepth form.target := by
  unfold exportForms at h
  split at h
  · obtain ⟨pair, _, rfl⟩ := List.mem_map.mp h
    rfl
  · rw [List.mem_singleton.mp h]
  · rw [List.mem_singleton.mp h]

/-- The depth of an import of a script is read off its target. -/
theorem depth_of_mem_scriptImports {form : ImportForm} (h : form ∈ doc.scriptImports t) :
    form.depth = pathDepth form.target := by
  unfold scriptImports at h
  split at h
  · cases hsource : doc.sourceModule? t with
    | none =>
      rw [hsource] at h
      cases h
    | some source =>
      rw [hsource] at h
      exact depth_of_mem_exportForms h
  · split at h
    · obtain ⟨target, _, rfl⟩ := List.mem_map.mp h
      rfl
    · split at h
      · cases h
      · rw [List.mem_singleton.mp h]
      · obtain ⟨part, _, hform⟩ := List.mem_flatMap.mp h
        exact depth_of_mem_clauseForms hform

/-- The depth of a required module is read off its target. -/
theorem depth_of_mem_requireForms {parent : Option Tree} {source : String} {form : ImportForm}
    (h : form ∈ doc.requireForms parent source) : form.depth = pathDepth form.target := by
  unfold requireForms at h
  dsimp only at h
  split at h
  · rw [List.mem_singleton.mp h]
  · obtain ⟨property, _, hform⟩ := List.mem_filterMap.mp h
    unfold propertyForm? at hform
    dsimp only at hform
    split at hform
    · cases hform
      rfl
    · obtain ⟨key, _, rfl⟩ := Option.map_eq_some_iff.mp hform
      rfl
    · cases hform
  · rw [List.mem_singleton.mp h]

/-- A node whose imports name files by their paths: an import of a script, or an include with
quotes. -/
inductive NamesByPath (doc : Document) (t : Tree) : Prop
  | script (hlanguage : doc.language.isScript = true) (hkind : t.kind ≠ "mod_item")
  | quoted {path : Tree} (hlanguage : doc.language.isCFamily = true)
      (hkind : t.kind = "preproc_include") (hpath : t.field? "path" = some path)
      (hquoted : path.kind ≠ "system_lib_string")

/-- Modules are named by paths in scripts and in the C family only. -/
theorem NamesByPath.language (h : doc.NamesByPath t) :
    doc.language.isScript = true ∨ doc.language.isCFamily = true := by
  cases h with
  | script hlanguage _ => exact .inl hlanguage
  | quoted hlanguage _ _ _ => exact .inr hlanguage

/-- The imports of a script have the depths of their specifiers. -/
theorem depth_of_mem_ownImports_script {parent : Option Tree} {form : ImportForm}
    (hlanguage : doc.language.isScript = true) (hkind : t.kind ≠ "mod_item")
    (hform : form ∈ doc.ownImports parent t) : form.depth = pathDepth form.target := by
  unfold ownImports at hform
  split at hform
  · have hscript : form ∈ doc.scriptImports t := by
      rcases Language.eq_of_isScript hlanguage with hlang | hlang | hlang <;>
        rwa [hlang] at hform
    exact depth_of_mem_scriptImports hscript
  · split at hform
    · cases hsource : doc.requiredModule? t with
      | none =>
        rw [hsource] at hform
        cases hform
      | some source =>
        rw [hsource] at hform
        exact depth_of_mem_requireForms hform
    · simp [hkind] at hform

/-- The import of a quoted include has the depth of its specifier. -/
theorem depth_of_mem_ownImports_quoted {parent : Option Tree} {path : Tree} {form : ImportForm}
    (hlanguage : doc.language.isCFamily = true) (hkind : t.kind = "preproc_include")
    (hpath : t.field? "path" = some path) (hquoted : path.kind ≠ "system_lib_string")
    (hform : form ∈ doc.ownImports parent t) : form.depth = includeDepth form.target := by
  have hinclude : form ∈ doc.includeForms t := by
    rcases Language.eq_of_isCFamily hlanguage with hlang | hlang
    all_goals
      have hrole : doc.role t = .importLike := by
        rw [role, Document.grammar, hlang, hkind]
        rfl
      rwa [ownImports, if_pos hrole, hlang] at hform
  rw [includeForms, if_pos (beq_iff_eq.mpr hkind), hpath] at hinclude
  rw [List.mem_singleton.mp hinclude]
  simp [hquoted]

/-- The depth of an import by path is the number of the counted steps, from the directory of the
file. -/
theorem NamesByPath.depth_eq (h : doc.NamesByPath t) {parent : Option Tree} {form : ImportForm}
    (hform : form ∈ doc.ownImports parent t) (hspecifier : IsSpecifier doc.language pieces)
    (htarget : form.target = Text.joinWith "/" pieces) :
    form.depth = countedUps doc.language pieces + 1 := by
  cases h with
  | script hlanguage hkind =>
    rw [depth_of_mem_ownImports_script hlanguage hkind hform, htarget,
      hspecifier.pathDepth_eq hlanguage]
  | quoted hlanguage hkind hpath hquoted =>
    rw [depth_of_mem_ownImports_quoted hlanguage hkind hpath hquoted hform, htarget,
      hspecifier.includeDepth_eq hlanguage]

end Document

/-- How an import by path is read in a file. -/
structure ReadsSpecifier (lang : Language) (path : Path) (pieces : List String)
    (form : ImportForm) : Prop where
  depth : form.depth = countedUps lang pieces + 1
  start : (Place.ofPath path lang).base? form.depth =
    ancestor? (countedUps lang pieces) path.directories
  segments : targetSegments form.target lang = plainNames pieces
  /-- The import looks where the path leads exactly when all steps up are counted, or the counted
  ones leave the unit. -/
  agrees : ((Place.ofPath path lang).base? form.depth).map (· ++ targetSegments form.target lang) =
      walk path.directories pieces ↔
    ".." ∉ uncounted lang pieces ∨ path.directories.length < countedUps lang pieces
  /-- An import that leaves the unit is a path that does. -/
  outside : (Place.ofPath path lang).base? form.depth = none → walk path.directories pieces = none
  /-- The converse holds if all steps up are counted. -/
  climbs : ".." ∉ uncounted lang pieces → walk path.directories pieces = none →
    (Place.ofPath path lang).base? form.depth = none

/-- The depth and the segments of a specifier decide where it leads. -/
theorem readsSpecifier_of_depth (hpath : lang.isScript = true ∨ lang.isCFamily = true)
    (hspecifier : IsSpecifier lang pieces) {form : ImportForm}
    (hdepth : form.depth = countedUps lang pieces + 1)
    (htarget : form.target = Text.joinWith "/" pieces) (path : Path) :
    ReadsSpecifier lang path pieces form := by
  have hpackage : path.package lang = path.directories := by
    cases lang with
    | rust => simp [Language.isScript, Language.isCFamily, Language.ecosystem] at hpath
    | python | go | java | javaScript | typeScript | tsx | c | cpp => rfl
  have hstart : (Place.ofPath path lang).base? form.depth =
      ancestor? (countedUps lang pieces) path.directories := by
    rw [hdepth, Place.base?_ofPath, hpackage]
  have hsegments : targetSegments form.target lang = plainNames pieces := by
    rw [htarget, hspecifier.targetSegments_eq hpath]
  have hwalk := walk_eq_bind lang path.directories pieces
  refine ⟨hdepth, hstart, hsegments, ?_, ?_, ?_⟩
  · rw [hstart, hsegments, hwalk, ← plainNames_uncounted lang pieces, ← ancestor?_eq_none_iff]
    cases ancestor? (countedUps lang pieces) path.directories with
    | none => simp
    | some start => simpa using walk_eq_iff start
  · intro hnone
    rw [hwalk, ← hstart, hnone]
    rfl
  · intro hups hnone
    rw [hwalk] at hnone
    rw [hstart]
    cases hancestor : ancestor? (countedUps lang pieces) path.directories with
    | none => rfl
    | some start =>
      rw [hancestor, Option.bind_some, walk_of_no_up start hups] at hnone
      cases hnone

/-- Every import by path, in every file, goes up the counted steps and then down along the names. -/
theorem path_specifiers_lead_up_then_down {doc : Document} {p : List Nat} {t : Tree}
    (hnames : doc.NamesByPath t) {form : ImportForm} (hform : form ∈ doc.importsAt p t)
    {pieces : List String} (hspecifier : IsSpecifier doc.language pieces)
    (htarget : form.target = Text.joinWith "/" pieces) (path : Path) :
    ReadsSpecifier doc.language path pieces form :=
  readsSpecifier_of_depth hnames.language hspecifier (hnames.depth_eq hform hspecifier htarget)
    htarget path

/-- The document of a script with one import. -/
def importingScript (specifier : String) : Document where
  language := .javaScript
  text := "import \"" ++ specifier ++ "\";"
  tree :=
    let size := specifier.utf8ByteSize
    .named "program" none 0 (size + 10)
      [.named "import_statement" none 0 (size + 10)
        [.named "string" (some "source") 7 (size + 9) []]]

/-- All steps up are counted, and the import looks where its path leads. -/
theorem path_specifiers_lead_up_then_down_above :
    ∃ t form, (importingScript "../a/b").NamesByPath t ∧
      (importingScript "../a/b").importsAt [0] t = [form] ∧
      IsSpecifier .javaScript ["..", "a", "b"] ∧
      ReadsSpecifier .javaScript ⟨"src/m.js"⟩ ["..", "a", "b"] form ∧
      ".." ∉ uncounted .javaScript ["..", "a", "b"] ∧
      walk ["src"] ["..", "a", "b"] = some ["a", "b"] := by
  have hspecifier : IsSpecifier .javaScript ["..", "a", "b"] :=
    ⟨by decide, by decide, by decide, by decide, fun _ => .inr rfl, by decide, nofun⟩
  have hstatement : ∃ t form, (importingScript "../a/b").NamesByPath t ∧
      (importingScript "../a/b").importsAt [0] t = [form] ∧
      form.target = Text.joinWith "/" ["..", "a", "b"] :=
    ⟨(importingScript "../a/b").tree.children.headI, _, .script rfl (by decide), rfl,
      by decide +kernel⟩
  obtain ⟨t, form, hnames, hforms, htarget⟩ := hstatement
  have hread := path_specifiers_lead_up_then_down hnames (p := [0]) (by simp [hforms]) hspecifier
    htarget ⟨"src/m.js"⟩
  exact ⟨t, form, hnames, hforms, hspecifier, hread, by decide, by decide⟩

/-- A `..` behind a name, behind a second `.` or at the end of an include is not counted, and the
file that is found may be in another directory than the one to which the path leads. -/
theorem late_ups_are_dropped :
    (IsSpecifier .javaScript [".", "a", "..", "b"] ∧
      walk ["src"] [".", "a", "..", "b"] = some ["src", "b"] ∧
      ((Place.ofPath ⟨"src/m.js"⟩ .javaScript).base? (pathDepth "./a/../b")).map
        (· ++ targetSegments "./a/../b" .javaScript) = some ["src", "a", "b"] ∧
      (Tables.ofFiles
        [{ path := ⟨"src/a/b.js"⟩, language := .javaScript },
          { path := ⟨"src/b.js"⟩, language := .javaScript },
          (importingScript "./a/../b").facts ⟨"src/m.js"⟩]).linkImports.imports.map
        (fun e => (e.target, e.status)) = [("./a/../b", .resolved 0)]) ∧
      (walk ["src"] [".", ".", "..", "b"] = some ["b"] ∧ pathDepth "././../b" = 1) ∧
      (walk ["src"] [".."] = some [] ∧ includeDepth ".." = 1) := by
  have hspecifier : IsSpecifier .javaScript [".", "a", "..", "b"] :=
    ⟨by decide, by decide, by decide, by decide, fun _ => .inl rfl, by decide, nofun⟩
  refine ⟨⟨hspecifier, by decide, by decide, ?_⟩, by decide, by decide⟩
  rw [Tables.ofFiles_of_ordered (by decide +kernel) (by decide +kernel)]
  decide +kernel

end CodeAtlas
