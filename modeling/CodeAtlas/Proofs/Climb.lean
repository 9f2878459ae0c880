import CodeAtlas.Facts.Fingerprint
import CodeAtlas.Graph.Tables

/-!
# Following parent links

A climb starts at a declaration and goes to the parent as long as there is one. `Climb` relates a
start to the finite list of positions that the climb visits before it ends, so a derivation is the
same as a terminating climb. The bounded climbs over declarations and over symbols visit the same
list: a climb never meets a position twice, hence the number of records is enough as a bound.

Links may point forwards. A climb ends whenever some rank falls along every link, and a renaming of
positions that respects links carries climbs over.
-/

namespace CodeAtlas

/-- Following parent links from a start visits exactly these positions and then ends. `up` gives the
parent of a position, and nothing at all for a position that does not exist. -/
inductive Climb (up : Nat → Option (Option Nat)) : Option Nat → List Nat → Prop
  | done : Climb up none []
  | step {index : Nat} {parent : Option Nat} {above : List Nat} (hparent : up index = some parent)
      (habove : Climb up parent above) : Climb up (some index) (index :: above)

namespace Climb

variable {up : Nat → Option (Option Nat)} {start : Option Nat} {chain : List Nat}

/-- A start has at most one climb. -/
theorem unique {other : List Nat} (h : Climb up start chain) (hother : Climb up start other) :
    chain = other := by
  induction h generalizing other with
  | done =>
    cases hother
    rfl
  | step hparent habove ih =>
    cases hother with
    | step hparent' habove' =>
      have hsame := Option.some.inj (hparent.symm.trans hparent')
      subst hsame
      rw [ih habove']

/-- From every position on a climb the rest of the climb is a climb of its own. -/
theorem suffix_of_mem (h : Climb up start chain) {index : Nat} (hindex : index ∈ chain) :
    ∃ above, Climb up (some index) (index :: above) ∧ (index :: above) <:+ chain := by
  induction h with
  | done => simp at hindex
  | step hparent habove ih =>
    rcases List.mem_cons.mp hindex with rfl | hlater
    · exact ⟨_, .step hparent habove, List.suffix_refl _⟩
    · obtain ⟨above, hclimb, hsuffix⟩ := ih hlater
      exact ⟨above, hclimb, hsuffix.trans (List.suffix_cons _ _)⟩

/-- A climb meets no position twice. -/
theorem nodup (h : Climb up start chain) : chain.Nodup := by
  induction h with
  | done => exact List.nodup_nil
  | step hparent habove ih =>
    refine List.nodup_cons.mpr ⟨?_, ih⟩
    intro hmem
    -- Meeting the position again would make its climb a proper part of itself.
    obtain ⟨above, hagain, hsuffix⟩ := habove.suffix_of_mem hmem
    have hsame := (Climb.step hparent habove).unique hagain
    have hshort := hsuffix.length_le
    rw [← hsame, List.length_cons] at hshort
    omega

/-- Every position on a climb exists. -/
theorem up_of_mem (h : Climb up start chain) {index : Nat} (hindex : index ∈ chain) :
    ∃ parent, up index = some parent := by
  obtain ⟨_, hclimb, _⟩ := h.suffix_of_mem hindex
  cases hclimb with
  | step hparent _ => exact ⟨_, hparent⟩

/-- A climb over `count` positions has at most `count` steps. -/
theorem length_le {count : Nat} (h : Climb up start chain)
    (hcount : ∀ index parent, up index = some parent → index < count) : chain.length ≤ count := by
  have hsubset : chain ⊆ List.range count := by
    intro index hindex
    obtain ⟨parent, hparent⟩ := h.up_of_mem hindex
    exact List.mem_range.mpr (hcount index parent hparent)
  simpa using h.nodup.length_le_of_subset hsubset

/-- A renaming that respects parent links carries climbs over. -/
theorem map {up' : Nat → Option (Option Nat)} (rename : Nat → Nat)
    (hlinks : ∀ index parent, up index = some parent →
      up' (rename index) = some (parent.map rename))
    (h : Climb up start chain) : Climb up' (start.map rename) (chain.map rename) := by
  induction h with
  | done => exact .done
  | step hparent _ ih => exact .step (hlinks _ _ hparent) ih

/-- More links keep the climbs that there are. -/
theorem mono {up' : Nat → Option (Option Nat)}
    (hlinks : ∀ index parent, up index = some parent → up' index = some parent)
    (h : Climb up start chain) : Climb up' start chain := by
  induction h with
  | done => exact .done
  | step hparent _ ih => exact .step (hlinks _ _ hparent) ih

/-- Climbs end when a rank falls along every link and every link leads to an existing position. -/
theorem exists_of_rank (rank : Nat → Nat)
    (hfalls : ∀ index parent, up index = some (some parent) →
      rank parent < rank index ∧ ∃ next, up parent = some next)
    {index : Nat} {parent : Option Nat} (hindex : up index = some parent) :
    ∃ chain, Climb up (some index) chain := by
  induction hrank : rank index using Nat.strongRecOn generalizing index parent with
  | ind bound ih =>
    cases parent with
    | none => exact ⟨[index], .step hindex .done⟩
    | some parent =>
      obtain ⟨hless, next, hnext⟩ := hfalls index parent hindex
      obtain ⟨above, habove⟩ := ih (rank parent) (hrank ▸ hless) hnext rfl
      exact ⟨index :: above, .step hindex habove⟩

end Climb

/-- The parent of a declaration, by position. -/
def parentAt (declarations : List Declaration) (index : Nat) : Option (Option Nat) :=
  declarations[index]?.map (·.parent)

/-- The name of a declaration, by position. -/
def nameAt (declarations : List Declaration) (index : Nat) : String :=
  declarations[index]?.elim "" (·.name)

/-- Only existing declarations have a parent entry. -/
theorem lt_of_parentAt {declarations : List Declaration} {index : Nat} {parent : Option Nat}
    (h : parentAt declarations index = some parent) : index < declarations.length := by
  obtain ⟨_, hget, _⟩ := Option.map_eq_some_iff.mp h
  exact (List.getElem?_eq_some_iff.mp hget).1

/-- Bounded collection of names runs along the climb as long as the bound allows it. -/
theorem namesOutwards_eq_of_climb {declarations : List Declaration} {start : Option Nat}
    {chain : List Nat} (h : Climb (parentAt declarations) start chain) (limit : Nat)
    (hlimit : chain.length ≤ limit) :
    namesOutwards declarations limit start = chain.map (nameAt declarations) := by
  induction h generalizing limit with
  | done => cases limit <;> rfl
  | @step index parent above hparent _ ih =>
    cases limit with
    | zero => simp at hlimit
    | succ limit =>
      obtain ⟨d, hget, rfl⟩ := Option.map_eq_some_iff.mp hparent
      have habove := ih limit (by simpa using hlimit)
      simp only [namesOutwards, hget, habove, List.map_cons, nameAt, Option.elim_some]

/-- A qualified name joins the names of the whole climb. -/
theorem qualifiedName_eq_of_climb {declarations : List Declaration} {index : Nat} {chain : List Nat}
    (h : Climb (parentAt declarations) (some index) chain) :
    qualifiedName declarations index =
      Text.joinWith "." (chain.map (nameAt declarations)).reverse := by
  have hlength := h.length_le fun _ _ => lt_of_parentAt
  rw [qualifiedName, namesOutwards_eq_of_climb h _ hlength]

namespace Tables

/-- The parent of a symbol, by position. -/
def parentAt (tables : Tables) (id : Nat) : Option (Option Nat) :=
  tables.symbols[id]?.map (·.parent)

/-- Only existing symbols have a parent entry. -/
theorem lt_of_parentAt {tables : Tables} {id : Nat} {parent : Option Nat}
    (h : tables.parentAt id = some parent) : id < tables.symbols.size := by
  obtain ⟨_, hget, _⟩ := Option.map_eq_some_iff.mp h
  exact (Array.getElem?_eq_some_iff.mp hget).1

/-- A bounded walk outwards runs along the climb as long as the bound allows it. -/
theorem outwards_eq_of_climb {tables : Tables} {start : Option Nat} {chain : List Nat}
    (h : Climb tables.parentAt start chain) (limit : Nat) (hlimit : chain.length ≤ limit) :
    tables.outwards limit start = chain := by
  induction h generalizing limit with
  | done => cases limit <;> rfl
  | step hparent _ ih =>
    cases limit with
    | zero => simp at hlimit
    | succ limit =>
      obtain ⟨s, hget, rfl⟩ := Option.map_eq_some_iff.mp hparent
      have habove := ih limit (by simpa using hlimit)
      simp only [outwards, hget, Option.bind_some, habove]

/-- The scopes around a place are the whole climb from it. -/
theorem scopeChain_eq_of_climb {tables : Tables} {start : Option Nat} {chain : List Nat}
    (h : Climb tables.parentAt start chain) : tables.scopeChain start = chain :=
  outwards_eq_of_climb h _ (h.length_le fun _ _ => lt_of_parentAt)

end Tables

end CodeAtlas
