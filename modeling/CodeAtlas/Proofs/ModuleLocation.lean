import CodeAtlas.Proofs.ImportCycles
import CodeAtlas.Proofs.Lists
import CodeAtlas.Proofs.Wildcards
import Mathlib.Data.Set.Card
import Mathlib.Order.Lattice.Nat

/-!
# Locating modules

The target of an import is looked for in three tiers. A relative import first means the key that
continues the place where it starts; the target then means a key as a whole, and at last the end of
a key. The first tier with a candidate decides, and of its candidates the one with the least
identity is chosen. Only the last tier can leave a doubt, since only there candidates can have
different keys.

Outside of the C family a relative import knows the first tier only. So it leads to a module below
the place where it starts, and it is external when it climbs out of the unit.
-/

namespace CodeAtlas

/-! ### Where a relative import starts -/

/-- A relative import of the given depth starts at the first segments of the importer's place: the
last one is dropped unless the importer stands for its directory, and one more for every further
level. -/
def Place.StartsAt (place : Place) (depth : Nat) (base : List String) : Prop :=
  ∃ dropped, place.segments = base ++ dropped ∧
    dropped.length = (if place.isPackage then 0 else 1) + (depth - 1)

/-- What the start of a relative import is. -/
theorem Place.base?_eq_some_iff {place : Place} {depth : Nat} {base : List String} :
    place.base? depth = some base ↔ place.StartsAt depth base := by
  rw [base?]
  generalize hsteps : (if place.isPackage then 0 else 1) + (depth - 1) = steps
  constructor
  · intro hbase
    split at hbase
    · obtain rfl := Option.some.inj hbase
      refine ⟨place.segments.drop (place.segments.length - steps),
        (List.take_append_drop _ _).symm, ?_⟩
      rw [List.length_drop, hsteps]
      omega
    · cases hbase
  · rintro ⟨dropped, hsegments, hdropped⟩
    have hlength : place.segments.length = base.length + steps := by
      rw [hsegments, List.length_append, hdropped, hsteps]
    rw [if_pos (by omega), hlength, Nat.add_sub_cancel, hsegments, List.take_left]

/-- A relative import has no start exactly when it climbs out of the unit. -/
theorem Place.base?_eq_none_iff {place : Place} {depth : Nat} :
    place.base? depth = none ↔ ∀ base, ¬ place.StartsAt depth base := by
  simp only [Option.eq_none_iff_forall_ne_some, ne_eq, base?_eq_some_iff]

/-- The start of a relative import is unique. -/
theorem Place.StartsAt.unique {place : Place} {depth : Nat} {base other : List String}
    (h : place.StartsAt depth base) (hother : place.StartsAt depth other) : base = other := by
  rw [← Place.base?_eq_some_iff] at h hother
  exact Option.some.inj (h.symm.trans hother)

/-! ### Tiers -/

/-- The tiers in which the target of an import is looked for, in this order. -/
inductive Tier where
  | relative
  | exact
  | ending

/-- Does a search also look at places away from the importer? Relative imports do so in the C family
only. -/
def SearchesAll (origin : Module) (depth : Nat) (segments : List String) : Prop :=
  segments ≠ [] ∧ (depth = 0 ∨ origin.language.isCFamily = true)

/-- The keys that a tier admits. -/
def Tier.Admits (origin : Module) (depth : Nat) (segments key : List String) : Tier → Prop
  | relative => 0 < depth ∧ ∃ base, origin.place.StartsAt depth base ∧ key = base ++ segments
  | exact => SearchesAll origin depth segments ∧ key = segments
  | ending => SearchesAll origin depth segments ∧ segments <:+ key

/-- The result of a search among modules is the one with the least identity. -/
def FindsLeast (result : Option Nat) (modules : Set Module) : Prop :=
  ∀ t, result = some t ↔ IsLeast (Module.id '' modules) t

/-- A search among no modules finds nothing. -/
theorem findsLeast_empty : FindsLeast none ∅ := by
  intro t
  rw [Set.image_empty]
  exact iff_of_false (by simp) fun hleast => hleast.1

/-- A search finds nothing exactly when there is nothing. -/
theorem FindsLeast.eq_none_iff {result : Option Nat} {modules : Set Module}
    (h : FindsLeast result modules) : result = none ↔ modules = ∅ := by
  constructor
  · rintro rfl
    by_contra hne
    have hids := (Set.nonempty_iff_ne_empty.mpr hne).image Module.id
    have hleast : IsLeast (Module.id '' modules) (sInf (Module.id '' modules)) :=
      ⟨Nat.sInf_mem hids, fun _ hid => Nat.sInf_le hid⟩
    cases (h _).mpr hleast
  · rintro rfl
    cases result with
    | none => rfl
    | some t =>
      obtain ⟨m, hm, _⟩ := ((h t).mp rfl).1
      cases hm

/-- The key of a module begins its logical name. -/
theorem Module.key_prefix (m : Module) : m.key <+: m.place.segments := by
  rw [key]
  split
  · exact List.dropLast_prefix _
  · exact List.prefix_rfl

namespace Tables

section Tiers

variable (tables : Tables) (origin : Module) (depth : Nat) (segments : List String)

/-- The modules of the importer's ecosystem with a key that a tier admits. -/
def candidates (tier : Tier) : Set Module :=
  {m | m ∈ tables.modules ∧ m.language.sharesModulesWith origin.language = true ∧
    tier.Admits origin depth segments m.key}

/-- A tier decides when it is the first one with a candidate. -/
inductive Decides : Tier → Prop
  | relative (hfound : (tables.candidates origin depth segments .relative).Nonempty) :
      Decides .relative
  | exact (hrelative : tables.candidates origin depth segments .relative = ∅)
      (hfound : (tables.candidates origin depth segments .exact).Nonempty) : Decides .exact
  | ending (hrelative : tables.candidates origin depth segments .relative = ∅)
      (hexact : tables.candidates origin depth segments .exact = ∅)
      (hfound : (tables.candidates origin depth segments .ending).Nonempty) : Decides .ending

/-- The keys among which the end of a key does not choose. -/
def rivalKeys : Set (List String) :=
  Module.key '' tables.candidates origin depth segments .ending

/-- The text of the doubt about a target that ends several keys. -/
def rivalText (segments : List String) (count : Nat) : String :=
  "module '" ++ Text.joinWith "." segments ++ "' matches " ++ Nat.repr count ++ " modules"

/-- How a search for a module ends. -/
structure LocatesInTiers (module : Nat) : Prop where
  /-- The candidate with the least identity is found in the first tier that has candidates. -/
  found : ∀ t, (tables.locate module depth segments).1 = some t ↔
    ∃ tier, tables.Decides origin depth segments tier ∧
      IsLeast (Module.id '' tables.candidates origin depth segments tier) t
  missing : (tables.locate module depth segments).1 = none ↔
    ∀ tier, tables.candidates origin depth segments tier = ∅
  /-- Candidates of different keys in the last tier are one doubt of the importer. -/
  doubted : tables.Decides origin depth segments .ending →
    (tables.rivalKeys origin depth segments).Nontrivial →
      (tables.locate module depth segments).2 =
        [⟨module, rivalText segments (tables.rivalKeys origin depth segments).ncard⟩]
  undoubted : ¬ (tables.Decides origin depth segments .ending ∧
    (tables.rivalKeys origin depth segments).Nontrivial) →
      (tables.locate module depth segments).2 = []

end Tiers

variable {tables : Tables} {origin : Module} {depth : Nat} {segments : List String}

/-- Only one tier decides. -/
theorem Decides.unique {tier other : Tier} (h : tables.Decides origin depth segments tier)
    (hother : tables.Decides origin depth segments other) : tier = other := by
  cases h with
  | relative hfound =>
    cases hother with
    | relative => rfl
    | exact hrelative | ending hrelative => exact absurd hrelative hfound.ne_empty
  | exact hrelative hfound =>
    cases hother with
    | relative hfound' => exact absurd hrelative hfound'.ne_empty
    | exact => rfl
    | ending _ hexact => exact absurd hexact hfound.ne_empty
  | ending hrelative hexact =>
    cases hother with
    | relative hfound' => exact absurd hrelative hfound'.ne_empty
    | exact _ hfound' => exact absurd hexact hfound'.ne_empty
    | ending => rfl

/-- A tier without candidates does not decide. -/
theorem Decides.nonempty {tier : Tier} (h : tables.Decides origin depth segments tier) :
    (tables.candidates origin depth segments tier).Nonempty := by
  cases h <;> assumption

/-- A module of an ecosystem whose key satisfies a condition. -/
theorem mem_modulesWhere_iff {lang : Language} {p : List String → Bool} {m : Module} :
    m ∈ tables.modulesWhere lang p ↔
      m ∈ tables.modules ∧ m.language.sharesModulesWith lang = true ∧ p m.key = true := by
  rw [modulesWhere, List.mem_filter, Bool.and_eq_true]

/-- The first of the modules whose keys satisfy a condition has the least identity. -/
theorem findsLeast_head?_modulesWhere (h : Numbered Module.id tables.modules) (lang : Language)
    (p : List String → Bool) :
    FindsLeast ((tables.modulesWhere lang p).head?.map (·.id))
      {m | m ∈ tables.modulesWhere lang p} := by
  intro t
  have hlisted := h.enumerates_filter fun m => m.language.sharesModulesWith lang && p m.key
  have hset : {id | ∃ m, tables.modules[id]? = some m ∧
      (m.language.sharesModulesWith lang && p m.key) = true} =
        Module.id '' {m | m ∈ tables.modulesWhere lang p} := by
    ext id
    rw [Set.mem_ofPred_eq, ← hlisted.mem_iff, List.mem_map]
    rfl
  rw [← List.head?_map, ← hset]
  exact hlisted.head?_eq_some_iff

/-- The candidates of a tier are the modules whose keys pass a test for what the tier admits. -/
theorem candidates_eq {tier : Tier} {p : List String → Bool}
    (hp : ∀ key, p key = true ↔ tier.Admits origin depth segments key) :
    tables.candidates origin depth segments tier =
      {m | m ∈ tables.modulesWhere origin.language p} := by
  ext m
  rw [Set.mem_ofPred_eq, mem_modulesWhere_iff, hp]
  rfl

/-- A tier that admits no key has no candidates. -/
theorem candidates_eq_empty {tier : Tier}
    (hnone : ∀ key, ¬ tier.Admits origin depth segments key) :
    tables.candidates origin depth segments tier = ∅ :=
  Set.eq_empty_iff_forall_notMem.mpr fun m hm => hnone m.key hm.2.2

/-- What a relative search finds. -/
def relative? (tables : Tables) (origin : Module) (depth : Nat) (segments : List String) :
    Option Nat :=
  if depth = 0 then none else
    (origin.place.base? depth).bind fun base => tables.moduleAt? origin.language (base ++ segments)

section Equations

variable {module : Nat} (horigin : tables.modules[module]? = some origin)
include horigin

/-- What a relative search finds is the result. -/
theorem locate_of_relative (hdepth : 0 < depth) {t : Nat}
    (hresult : tables.relative? origin depth segments = some t) :
    tables.locate module depth segments = (some t, []) := by
  have hbind := hresult
  rw [relative?, if_neg hdepth.ne'] at hbind
  rw [locate, horigin]
  simp only [Option.getD_some, if_neg hdepth.ne', hbind]
  simp [hdepth]

/-- A search that stays near the importer ends with its relative part. -/
theorem locate_of_not_searchesAll (hnear : ¬ SearchesAll origin depth segments)
    (hresult : tables.relative? origin depth segments = none) :
    tables.locate module depth segments = (none, []) := by
  rw [relative?] at hresult
  rw [locate, horigin]
  simp only [Option.getD_some, hresult]
  split
  · rfl
  · rename_i hfar
    rw [if_pos]
    by_contra hsegments
    refine hnear ⟨by simpa using hsegments, ?_⟩
    simp only [Option.isSome_none, Bool.false_or, Bool.and_eq_true, decide_eq_true_eq,
      Bool.not_eq_true', not_and, Bool.not_eq_false] at hfar
    exact Nat.eq_zero_or_pos depth |>.imp_right hfar

/-- A search everywhere goes on with the key as a whole and with the end of a key. -/
theorem locate_of_searchesAll (hall : SearchesAll origin depth segments)
    (hresult : tables.relative? origin depth segments = none) :
    tables.locate module depth segments =
      match tables.moduleAt? origin.language segments with
      | some found => (some found, [])
      | none => tables.locateByEnd module origin.language segments := by
  obtain ⟨hsegments, hfar⟩ := hall
  rw [relative?] at hresult
  rw [locate, horigin]
  simp only [Option.getD_some, hresult]
  refine (if_neg ?_).trans (if_neg ?_)
  · rcases hfar with rfl | hfamily <;> simp [*]
  · simpa using hsegments

end Equations

/-- The first tier admits the one key that continues the start, if there is a start. -/
theorem candidates_relative (hdepth : 0 < depth) {base : List String}
    (hbase : origin.place.StartsAt depth base) :
    tables.candidates origin depth segments .relative =
      {m | m ∈ tables.modulesWhere origin.language (· == base ++ segments)} := by
  refine candidates_eq fun key => ?_
  rw [beq_iff_eq]
  constructor
  · intro hkey
    exact ⟨hdepth, base, hbase, hkey⟩
  · rintro ⟨_, other, hother, hkey⟩
    rw [hkey, hbase.unique hother]

/-- A relative search finds the least candidate of the first tier. -/
theorem findsLeast_relative? (h : Numbered Module.id tables.modules) :
    FindsLeast (tables.relative? origin depth segments)
      (tables.candidates origin depth segments .relative) := by
  rw [relative?]
  split
  · rename_i hdepth
    rw [candidates_eq_empty]
    · exact findsLeast_empty
    · rintro key ⟨hpositive, _⟩
      omega
  · rename_i hdepth
    cases hbase : origin.place.base? depth with
    | none =>
      rw [candidates_eq_empty]
      · exact findsLeast_empty
      · rintro key ⟨_, base, hstarts, _⟩
        exact Place.base?_eq_none_iff.mp hbase base hstarts
    | some base =>
      rw [candidates_relative (Nat.pos_of_ne_zero hdepth) (Place.base?_eq_some_iff.mp hbase)]
      exact findsLeast_head?_modulesWhere h _ _

section Everywhere

variable (hall : SearchesAll origin depth segments)
include hall

/-- The second tier admits one key. -/
theorem candidates_exact :
    tables.candidates origin depth segments .exact =
      {m | m ∈ tables.modulesWhere origin.language (· == segments)} := by
  refine candidates_eq fun key => ?_
  rw [beq_iff_eq]
  exact ⟨fun hkey => ⟨hall, hkey⟩, fun hadmits => hadmits.2⟩

/-- The last tier admits the keys with an ending. -/
theorem candidates_ending :
    tables.candidates origin depth segments .ending =
      {m | m ∈ tables.modulesWhere origin.language (endsWithSegments · segments)} := by
  refine candidates_eq fun key => ?_
  rw [endsWithSegments, Bool.and_eq_true, Bool.not_eq_true', List.isEmpty_eq_false_iff,
    List.isSuffixOf_iff_suffix]
  exact ⟨fun hkey => ⟨hall, hkey.2⟩, fun hadmits => ⟨hall.1, hadmits.2⟩⟩

/-- The doubts about the end of a key count the different keys. -/
theorem locateByEnd_doubts (module : Nat) :
    (tables.locateByEnd module origin.language segments).2 =
      if 1 < (tables.rivalKeys origin depth segments).ncard then
        [⟨module, rivalText segments (tables.rivalKeys origin depth segments).ncard⟩]
      else [] := by
  have hkeys : ((tables.modulesWhere origin.language (endsWithSegments · segments)).map
      (·.key)).eraseDups.length = (tables.rivalKeys origin depth segments).ncard := by
    rw [length_eraseDups, rivalKeys, candidates_ending hall]
    congr 1
    ext key
    rw [Set.mem_ofPred_eq, List.mem_map]
    rfl
  rw [locateByEnd, hkeys]
  rfl

end Everywhere

/-- A search that stays near the importer has no candidates in the later tiers. -/
theorem candidates_of_not_searchesAll (hnear : ¬ SearchesAll origin depth segments) {tier : Tier}
    (htier : tier ≠ .relative) : tables.candidates origin depth segments tier = ∅ := by
  refine candidates_eq_empty fun key hadmits => ?_
  cases tier with
  | relative => exact htier rfl
  | exact => exact hnear hadmits.1
  | ending => exact hnear hadmits.1

/-! ### The end of a search -/

section Locate

variable (tables origin depth segments) in
/-- The possible ends of a search. -/
inductive SearchEnds (module : Nat) : Judged (Option Nat) → Prop
  | found {tier : Tier} {t : Nat} (hdecides : tables.Decides origin depth segments tier)
      (hleast : IsLeast (Module.id '' tables.candidates origin depth segments tier) t)
      (hsure : tier ≠ .ending) : SearchEnds module (some t, [])
  | foundByEnd {t : Nat} (hdecides : tables.Decides origin depth segments .ending)
      (hleast : IsLeast (Module.id '' tables.candidates origin depth segments .ending) t) :
      SearchEnds module (some t, if 1 < (tables.rivalKeys origin depth segments).ncard then
        [⟨module, rivalText segments (tables.rivalKeys origin depth segments).ncard⟩]
      else [])
  | missing (hnone : ∀ tier, tables.candidates origin depth segments tier = ∅) :
      SearchEnds module (none, [])

/-- Some module with the least identity is among the candidates. -/
theorem nonempty_of_isLeast {modules : Set Module} {t : Nat}
    (h : IsLeast (Module.id '' modules) t) : modules.Nonempty := Set.image_nonempty.mp ⟨t, h.1⟩

/-- A result is the least candidate of the tier that decides. -/
theorem SearchEnds.found_iff {module t : Nat} {result : Judged (Option Nat)}
    (h : tables.SearchEnds origin depth segments module result) :
    result.1 = some t ↔ ∃ tier, tables.Decides origin depth segments tier ∧
      IsLeast (Module.id '' tables.candidates origin depth segments tier) t := by
  have hfound {tier : Tier} {first : Nat} (hdecides : tables.Decides origin depth segments tier)
      (hleast : IsLeast (Module.id '' tables.candidates origin depth segments tier) first) :
      some first = some t ↔ ∃ tier, tables.Decides origin depth segments tier ∧
        IsLeast (Module.id '' tables.candidates origin depth segments tier) t := by
    constructor
    · rintro ⟨⟩
      exact ⟨tier, hdecides, hleast⟩
    · rintro ⟨other, hother, hleast'⟩
      obtain rfl := hdecides.unique hother
      rw [hleast.unique hleast']
  cases h with
  | found hdecides hleast => exact hfound hdecides hleast
  | foundByEnd hdecides hleast => exact hfound hdecides hleast
  | missing hnone =>
    refine iff_of_false (by simp) ?_
    rintro ⟨tier, hdecides, _⟩
    exact hdecides.nonempty.ne_empty (hnone tier)

/-- There is no result exactly when no tier has a candidate. -/
theorem SearchEnds.missing_iff {module : Nat} {result : Judged (Option Nat)}
    (h : tables.SearchEnds origin depth segments module result) :
    result.1 = none ↔ ∀ tier, tables.candidates origin depth segments tier = ∅ := by
  have hfound {tier : Tier} (first : Nat) (hdecides : tables.Decides origin depth segments tier) :
      some first = none ↔ ∀ tier, tables.candidates origin depth segments tier = ∅ :=
    iff_of_false (by simp) fun hnone => hdecides.nonempty.ne_empty (hnone tier)
  cases h with
  | found hdecides => exact hfound _ hdecides
  | foundByEnd hdecides => exact hfound _ hdecides
  | missing hnone => exact iff_of_true rfl hnone

/-- Where the last tier decides, the doubts count its keys. -/
theorem SearchEnds.doubts_of_ending {module : Nat} {result : Judged (Option Nat)}
    (h : tables.SearchEnds origin depth segments module result)
    (hending : tables.Decides origin depth segments .ending) :
    result.2 = if 1 < (tables.rivalKeys origin depth segments).ncard then
        [⟨module, rivalText segments (tables.rivalKeys origin depth segments).ncard⟩]
      else [] := by
  cases h with
  | found hdecides _ hsure => exact absurd (hdecides.unique hending) hsure
  | foundByEnd => rfl
  | missing hnone => exact absurd (hnone .ending) hending.nonempty.ne_empty

/-- The keys of the last tier are more than one exactly when they differ. -/
theorem one_lt_ncard_rivalKeys_iff :
    1 < (tables.rivalKeys origin depth segments).ncard ↔
      (tables.rivalKeys origin depth segments).Nontrivial := by
  have hfinite : (tables.rivalKeys origin depth segments).Finite :=
    ((List.finite_toSet tables.modules).subset fun _ hm => hm.1).image _
  have := hfinite.to_subtype
  exact Set.one_lt_ncard_iff_nontrivial

variable (h : Numbered Module.id tables.modules)
include h

/-- A search by the end of a key ends in the last tier. -/
theorem locateByEnd_searchEnds (hall : SearchesAll origin depth segments) (module : Nat)
    (hrelative : tables.candidates origin depth segments .relative = ∅)
    (hexact : tables.candidates origin depth segments .exact = ∅) :
    tables.SearchEnds origin depth segments module
      (tables.locateByEnd module origin.language segments) := by
  have hfinds : FindsLeast (tables.locateByEnd module origin.language segments).1
      (tables.candidates origin depth segments .ending) := by
    rw [candidates_ending hall]
    exact findsLeast_head?_modulesWhere h _ _
  rw [← Prod.eta (tables.locateByEnd module origin.language segments), locateByEnd_doubts hall]
  cases hresult : (tables.locateByEnd module origin.language segments).1 with
  | some t =>
    have hleast := (hfinds t).mp hresult
    exact .foundByEnd (.ending hrelative hexact (nonempty_of_isLeast hleast)) hleast
  | none =>
    have hending := hfinds.eq_none_iff.mp hresult
    rw [rivalKeys, hending, Set.image_empty, Set.ncard_empty, if_neg (Nat.not_lt_zero 1)]
    exact .missing fun
      | .relative => hrelative
      | .exact => hexact
      | .ending => hending

variable {module : Nat} (horigin : tables.modules[module]? = some origin)
include horigin

/-- Every search ends in the first tier that has candidates. -/
theorem locate_searchEnds (depth : Nat) (segments : List String) :
    tables.SearchEnds origin depth segments module (tables.locate module depth segments) := by
  have hfirst : FindsLeast (tables.relative? origin depth segments)
      (tables.candidates origin depth segments .relative) := findsLeast_relative? h
  cases hresult : tables.relative? origin depth segments with
  | some t =>
    have hleast := (hfirst t).mp hresult
    -- A candidate of the first tier is there only for an import that is relative.
    obtain ⟨m, ⟨_, _, hdepth, _⟩, _⟩ := hleast.1
    rw [locate_of_relative horigin hdepth hresult]
    exact .found (.relative (nonempty_of_isLeast hleast)) hleast Tier.noConfusion
  | none =>
    have hrelative := hfirst.eq_none_iff.mp hresult
    by_cases hall : SearchesAll origin depth segments
    · have hsecond : FindsLeast (tables.moduleAt? origin.language segments)
          (tables.candidates origin depth segments .exact) := by
        rw [candidates_exact hall]
        exact findsLeast_head?_modulesWhere h _ _
      rw [locate_of_searchesAll horigin hall hresult]
      cases hexact : tables.moduleAt? origin.language segments with
      | some t =>
        have hleast := (hsecond t).mp hexact
        exact .found (.exact hrelative (nonempty_of_isLeast hleast)) hleast Tier.noConfusion
      | none =>
        exact locateByEnd_searchEnds h hall module hrelative (hsecond.eq_none_iff.mp hexact)
    · rw [locate_of_not_searchesAll horigin hall hresult]
      refine .missing fun tier => ?_
      by_cases htier : tier = .relative
      · rw [htier, hrelative]
      · exact candidates_of_not_searchesAll hall htier

/-- The end of a search is described by its tiers. -/
theorem locatesInTiers (depth : Nat) (segments : List String) :
    tables.LocatesInTiers origin depth segments module := by
  have hends := locate_searchEnds h horigin depth segments
  generalize hresult : tables.locate module depth segments = result at hends
  constructor <;> rw [hresult]
  · intro t
    exact hends.found_iff
  · exact hends.missing_iff
  · intro hending hrivals
    rw [hends.doubts_of_ending hending, if_pos (one_lt_ncard_rivalKeys_iff.mpr hrivals)]
  · intro hnot
    cases hends with
    | found => rfl
    | foundByEnd hdecides =>
      exact if_neg fun hmany => hnot ⟨hdecides, one_lt_ncard_rivalKeys_iff.mp hmany⟩
    | missing => rfl

end Locate

/-! ### Imports of located targets -/

/-- What becomes of an import whose target is located. -/
def outcomeAt (tables : Tables) (m : Nat) : ImportedName → ImportStatus × Option ImportBinding
  | .whole => (.resolved m, some (.module m))
  | .wildcard => (.resolved m, none)
  | .name name => tables.bindName m name

/-- An import of a located target, with the doubts about the target. -/
theorem judgeImport_of_located {e : ImportEdge} {m : Nat}
    (horigin : tables.modules[e.module]? = some origin)
    (hfound : (tables.locate e.module e.depth (targetSegments e.target origin.language)).1 =
      some m) :
    tables.judgeImport e = (tables.outcomeAt m e.name,
      (tables.locate e.module e.depth (targetSegments e.target origin.language)).2) := by
  rw [judgeImport, horigin, Option.getD_some]
  simp only [hfound]
  cases e.name <;> rfl

/-! ### Relative imports -/

section Relative

variable (tables origin) in
/-- What becomes of a relative import that stays near the importer: it leads to a module below the
place where it starts, and out of the unit if it climbs there. -/
structure StaysBelow (e : ImportEdge) : Prop where
  below : ∀ t, e.status = .resolved t → ∃ base target, origin.place.StartsAt e.depth base ∧
    tables.modules[t]? = some target ∧
      base ++ targetSegments e.target origin.language <+: target.key
  outside : (∀ base, ¬ origin.place.StartsAt e.depth base) → e.status = .external

variable (h : Numbered Module.id tables.modules) {module : Nat}
  (horigin : tables.modules[module]? = some origin)
include h horigin

/-- A search that stays near the importer finds the key that continues the start. -/
theorem key_of_locate (hnear : ¬ SearchesAll origin depth segments) {t : Nat}
    (hfound : (tables.locate module depth segments).1 = some t) :
    ∃ base target, origin.place.StartsAt depth base ∧ tables.modules[t]? = some target ∧
      target.key = base ++ segments := by
  obtain ⟨tier, hdecides, hleast⟩ := ((locatesInTiers h horigin depth segments).found t).mp hfound
  by_cases htier : tier = .relative
  · subst htier
    obtain ⟨target, ⟨hmem, _, _, base, hstarts, hkey⟩, rfl⟩ := hleast.1
    exact ⟨base, target, hstarts, h.getElem?_of_mem hmem, hkey⟩
  · exact absurd (candidates_of_not_searchesAll hnear htier) hdecides.nonempty.ne_empty

/-- A search that stays near the importer finds nothing outside of the unit. -/
theorem locate_eq_none_of_outside (hnear : ¬ SearchesAll origin depth segments)
    (houtside : ∀ base, ¬ origin.place.StartsAt depth base) :
    (tables.locate module depth segments).1 = none := by
  cases hfound : (tables.locate module depth segments).1 with
  | none => rfl
  | some t =>
    obtain ⟨base, _, hstarts, _⟩ := key_of_locate h horigin hnear hfound
    exact absurd hstarts (houtside base)

omit horigin in
/-- A name of a located module leads to this module or to one below it. -/
theorem key_of_bindName {m t : Nat} {located : Module}
    (hlocated : tables.modules[m]? = some located) {name : String}
    (hstatus : (tables.bindName m name).1 = .resolved t) :
    ∃ target, tables.modules[t]? = some target ∧ located.key <+: target.key := by
  rw [bindName] at hstatus
  split at hstatus
  · cases hstatus
    exact ⟨located, hlocated, List.prefix_rfl⟩
  · split at hstatus
    · rename_i sub hsub
      cases hstatus
      rw [submodule?, hlocated] at hsub
      obtain ⟨target, hmem, rfl⟩ := ((findsLeast_head?_modulesWhere h _ _ t).mp hsub).1
      obtain ⟨hmem, _, hkey⟩ := mem_modulesWhere_iff.mp hmem
      refine ⟨target, h.getElem?_of_mem hmem, ?_⟩
      rw [beq_iff_eq.mp hkey]
      exact located.key_prefix.trans (List.prefix_append _ _)
    · cases hstatus
      exact ⟨located, hlocated, List.prefix_rfl⟩

omit horigin in
/-- A written relative import outside of the C family stays below its start. -/
theorem linkImport_staysBelow {edge : ImportEdge}
    (horigin : tables.modules[edge.module]? = some origin) (hdepth : 0 < edge.depth)
    (hfamily : origin.language.isCFamily = false) :
    tables.StaysBelow origin (tables.linkImport edge).1 := by
  have hnear (segments : List String) : ¬ SearchesAll origin edge.depth segments := by
    rintro ⟨_, hzero | hcFamily⟩
    · omega
    · rw [hfamily] at hcFamily
      cases hcFamily
  have hjudged : (tables.linkImport edge).1.status = (tables.judgeImport edge).1.1 := rfl
  constructor
  · intro t hstatus
    change ∃ base target, origin.place.StartsAt edge.depth base ∧ tables.modules[t]? = some target ∧
      base ++ targetSegments edge.target origin.language <+: target.key
    have hwhole {m : Nat} (hfound : (tables.locate edge.module edge.depth
        (targetSegments edge.target origin.language)).1 = some m) :
        ∃ base located, origin.place.StartsAt edge.depth base ∧
          tables.modules[m]? = some located ∧
            located.key = base ++ targetSegments edge.target origin.language :=
      key_of_locate h horigin (hnear _) hfound
    rw [hjudged, judgeImport, horigin] at hstatus
    dsimp only [Option.getD_some] at hstatus
    split at hstatus
    · cases hstatus
      obtain ⟨base, located, hstarts, hget, hkey⟩ := hwhole ‹_›
      exact ⟨base, located, hstarts, hget, hkey ▸ List.prefix_rfl⟩
    · cases hstatus
      obtain ⟨base, located, hstarts, hget, hkey⟩ := hwhole ‹_›
      exact ⟨base, located, hstarts, hget, hkey ▸ List.prefix_rfl⟩
    · obtain ⟨base, located, hstarts, hget, hkey⟩ := hwhole ‹_›
      obtain ⟨target, htarget, hbelow⟩ := key_of_bindName h hget hstatus
      exact ⟨base, target, hstarts, htarget, hkey ▸ hbelow⟩
    · split at hstatus
      · cases hstatus
        obtain ⟨base, located, hstarts, hget, hkey⟩ := key_of_locate h horigin (hnear _) ‹_›
        refine ⟨base, located, hstarts, hget, ?_⟩
        rw [hkey, ← List.append_assoc]
        exact List.prefix_append _ _
      · cases hstatus
    · cases hstatus
  · intro houtside
    have hnone (segments : List String) :
        (tables.locate edge.module edge.depth segments).1 = none :=
      locate_eq_none_of_outside h horigin (hnear segments) houtside
    rw [hjudged, judgeImport, horigin]
    dsimp only [Option.getD_some]
    rw [hnone]
    cases edge.name <;> simp [hnone]

end Relative

/-- The symbols that a module lists are its own, whatever the files declare. -/
theorem ofFiles_listed (files : List FileFacts) :
    ∀ m ∈ (ofFiles files).modules, ∀ id ∈ m.symbols,
      ∃ s, (ofFiles files).symbols.toList[id]? = some s ∧ s.module = m.id := by
  refine ofFiles_induction (P := fun t => ∀ m ∈ t.modules, ∀ id ∈ m.symbols,
    ∃ s, t.symbols.toList[id]? = some s ∧ s.module = m.id) files (by simp) ?_
  intro tables file _ hlisted m hm id hid
  rw [addFile_modules] at hm
  rw [addFile_symbols, ← Array.length_toList]
  rcases List.mem_append.mp hm with hold | hnew
  · obtain ⟨s, hs, hmodule⟩ := hlisted m hold id hid
    exact ⟨s, getElem?_append_of_some _ hs, hmodule⟩
  · obtain rfl := List.mem_singleton.mp hnew
    obtain ⟨k, hk, rfl⟩ := List.mem_map.mp hid
    obtain ⟨d, hd, _⟩ := ((childrenOf_enumerates file.declarations none).mem_iff k).mp hk
    exact shifted_leads_to_own_module (List.getElem?_eq_some_iff.mp hd).1

/-- The exposed symbols of a module belong to files with its key. -/
theorem key_of_exposed (h : Numbered Module.id tables.modules)
    (hlisted : ∀ m ∈ tables.modules, ∀ id ∈ m.symbols,
      ∃ s, tables.symbols.toList[id]? = some s ∧ s.module = m.id)
    {m : Nat} {s : Symbol} (hs : s ∈ tables.exposedSymbols m) :
    ∃ located home, tables.modules[m]? = some located ∧ tables.modules[s.module]? = some home ∧
      home.key = located.key := by
  obtain ⟨id, hid, hget⟩ := List.mem_filterMap.mp hs
  have hsymbol := (Option.filter_eq_some_iff.mp hget).1
  rw [← Array.getElem?_toList] at hsymbol
  have hhome {home : Module} (hmem : home ∈ tables.modules) (hid : id ∈ home.symbols) :
      tables.modules[s.module]? = some home := by
    obtain ⟨own, hown, hmodule⟩ := hlisted home hmem id hid
    obtain rfl := Option.some.inj (hown.symm.trans hsymbol)
    rw [hmodule, h.getElem?_of_mem hmem]
  rw [topLevel] at hid
  split at hid
  · cases hid
  · rename_i located hlocated
    split at hid
    · obtain ⟨home, hmem, hid⟩ := List.mem_flatMap.mp hid
      obtain ⟨hmem, hshared⟩ := List.mem_filter.mp hmem
      rw [Bool.and_eq_true, beq_iff_eq, beq_iff_eq] at hshared
      exact ⟨located, home, hlocated, hhome hmem hid, hshared.2⟩
    · exact ⟨located, located, hlocated, hhome (List.mem_of_getElem? hlocated) hid, rfl⟩

/-- Every relative import of a unit outside of the C family stays below its start, derived ones
included. -/
theorem linkImports_staysBelow (files : List FileFacts) {e : ImportEdge}
    (he : e ∈ (ofFiles files).linkImports.imports) {origin : Module}
    (horigin : (ofFiles files).modules[e.module]? = some origin) (hdepth : 0 < e.depth)
    (hfamily : origin.language.isCFamily = false) : (ofFiles files).StaysBelow origin e := by
  obtain ⟨hnumbered, _⟩ := ofFiles_importers files
  rw [linkImports_imports] at he
  rcases List.mem_append.mp he with he | he
  · obtain ⟨edge, _, rfl⟩ := List.mem_map.mp he
    exact linkImport_staysBelow hnumbered horigin hdepth hfamily
  · obtain ⟨expansion, hexpansion, id, rfl⟩ := mem_numbered he
    obtain ⟨linked, hlinked, hexpansion⟩ := List.mem_flatMap.mp hexpansion
    obtain ⟨edge, _, rfl⟩ := List.mem_map.mp hlinked
    obtain ⟨_, m, hstatus, s, hs, rfl⟩ := mem_expansions_iff.mp hexpansion
    -- The symbol may belong to another file of the package, but this file has the same key.
    have hwildcard : (ofFiles files).StaysBelow origin ((ofFiles files).linkImport edge).1 :=
      linkImport_staysBelow hnumbered horigin hdepth hfamily
    obtain ⟨base, located, hstarts, hget, hbelow⟩ := hwildcard.below m hstatus
    obtain ⟨located', home, hlocated, hhome, hkey⟩ :=
      key_of_exposed hnumbered (ofFiles_listed files) hs
    obtain rfl := Option.some.inj (hlocated.symm.trans hget)
    constructor
    · rintro _ ⟨⟩
      exact ⟨base, home, hstarts, hhome, hkey ▸ hbelow⟩
    · intro houtside
      exact absurd hstarts (houtside base)

end Tables

/-- In every collected unit a module is located in the first tier that has candidates, as the one
with the least identity, and with a doubt exactly where the end of a key fits different keys. -/
theorem modules_are_located_in_tiers (files : List FileFacts) {module : Nat} {origin : Module}
    (horigin : (Tables.ofFiles files).modules[module]? = some origin) :
    (∀ depth segments, (Tables.ofFiles files).LocatesInTiers origin depth segments module) ∧
      ∀ e ∈ (Tables.ofFiles files).linkImports.imports, e.module = module → 0 < e.depth →
        origin.language.isCFamily = false → (Tables.ofFiles files).StaysBelow origin e := by
  refine ⟨fun depth segments => ?_, ?_⟩
  · exact Tables.locatesInTiers (Tables.ofFiles_importers files).1 horigin depth segments
  · rintro e he rfl hdepth hfamily
    exact Tables.linkImports_staysBelow files he horigin hdepth hfamily

/-- Two modules whose keys end alike, and a file next to the first that imports it relatively and
reaches out of the unit. -/
def twoShapes : List FileFacts :=
  [{ path := ⟨"app/lib/shapes.py"⟩, language := .python },
    { path := ⟨"app/main.py"⟩, language := .python
      imports :=
        [{ target := ".lib", name := .name "shapes", localName := "shapes", depth := 1 },
          { target := "...lib", name := .name "shapes", localName := "shapes", depth := 3 }] },
    { path := ⟨"old/lib/shapes.py"⟩, language := .python }]

/-- The plain name fits two keys, the relative import leads to the module next to its file, and the
other one leads nowhere. -/
theorem modules_are_located_in_tiers_two_shapes :
    ∃ origin, (Tables.ofFiles twoShapes).modules[1]? = some origin ∧
      origin.language.isCFamily = false ∧
      (∀ depth segments, (Tables.ofFiles twoShapes).LocatesInTiers origin depth segments 1) ∧
      (Tables.ofFiles twoShapes).locate 1 0 ["shapes"] =
        (some 0, [⟨1, "module 'shapes' matches 2 modules"⟩]) ∧
      (∀ e ∈ (Tables.ofFiles twoShapes).linkImports.imports, e.module = 1 ∧ 0 < e.depth ∧
        (Tables.ofFiles twoShapes).StaysBelow origin e) ∧
      (Tables.ofFiles twoShapes).linkImports.imports.map (·.status) =
        [.resolved 0, .external] := by
  have htables : Tables.ofFiles twoShapes = twoShapes.foldl Tables.addFile {} :=
    Tables.ofFiles_of_ordered (by decide) (by decide)
  have hcomputed : (Tables.ofFiles twoShapes).modules[1]?.map (·.language) = some .python ∧
      (Tables.ofFiles twoShapes).locate 1 0 ["shapes"] =
        (some 0, [⟨1, "module 'shapes' matches 2 modules"⟩]) ∧
      (∀ e ∈ (Tables.ofFiles twoShapes).linkImports.imports, e.module = 1 ∧ 0 < e.depth) ∧
      (Tables.ofFiles twoShapes).linkImports.imports.map (·.status) =
        [.resolved 0, .external] := by
    rw [htables]
    decide +kernel
  obtain ⟨hlanguage, hlocate, himports, hstatus⟩ := hcomputed
  obtain ⟨origin, horigin, hpython⟩ := Option.map_eq_some_iff.mp hlanguage
  obtain ⟨htiers, hbelow⟩ := modules_are_located_in_tiers twoShapes horigin
  have hfamily : origin.language.isCFamily = false := by
    rw [hpython]
    rfl
  refine ⟨origin, horigin, hfamily, htiers, hlocate, fun e he => ?_, hstatus⟩
  obtain ⟨hmodule, hdepth⟩ := himports e he
  exact ⟨hmodule, hdepth, hbelow e he hmodule hdepth hfamily⟩

end CodeAtlas
