import CodeAtlas.Proofs.BracketedWalk

/-!
# What encloses a stop

Each part of the surroundings of a stop was set at one of the stops above it, the nearest of those that
set it, or has the value that it had at the start. The enclosing declaration is that of the nearest
stop above that opens a scope, and everything that is recorded at a stop has it as its parent.
-/

namespace CodeAtlas

namespace Document

variable {doc : Document} {s a : Stop} {p q : List Nat} {k : Nat} {e : Entry}

/-- What holds at the start of a document, and passes from each stop to those directly below it, holds
at every stop. -/
theorem Comes.induction_down {motive : List Nat → Stop → Prop} (hstart : motive [] doc.start)
    (hstep : ∀ p s i next, doc.Comes doc.start p s → (i, next) ∈ doc.stopsBelow s → motive p s →
      motive (p ++ [i]) next) (h : doc.Comes doc.start p s) : motive p s := by
  induction hlength : p.length generalizing p s with
  | zero =>
    obtain rfl := List.eq_nil_of_length_eq_zero hlength
    cases h
    exact hstart
  | succ n ih =>
    rcases h.eq_or_concat with ⟨rfl, _⟩ | ⟨q, i, before, rfl, hbefore, hlast⟩
    · cases hlength
    · exact hstep q before i s hbefore hlast (ih hbefore (by simpa using hlength))

/-- A stop on the way to an address. -/
structure IsAbove (doc : Document) (q : List Nat) (a : Stop) (p : List Nat) : Prop where
  comes : doc.Comes doc.start q a
  below : q <+: p
  proper : q ≠ p

/-- Nothing is above the start. -/
theorem not_isAbove_nil : ¬ doc.IsAbove q a [] := by
  intro h
  exact h.proper (List.prefix_nil.mp h.below)

/-- Above a child are its parent and what is above the parent. -/
theorem isAbove_concat_iff {i : Nat} (h : doc.Comes doc.start p s) :
    doc.IsAbove q a (p ++ [i]) ↔ q = p ∧ a = s ∨ doc.IsAbove q a p := by
  constructor
  · rintro ⟨hcomes, hbelow, hproper⟩
    rcases List.prefix_concat_iff.mp hbelow with rfl | hbelow
    · exact absurd rfl hproper
    · by_cases hq : q = p
      · subst hq
        exact .inl ⟨rfl, hcomes.unique h⟩
      · exact .inr ⟨hcomes, hbelow, hq⟩
  · rintro (⟨rfl, rfl⟩ | ⟨hcomes, hbelow, hproper⟩)
    · exact ⟨h, List.prefix_append _ _, by simp⟩
    · refine ⟨hcomes, hbelow.trans (List.prefix_append _ _), ?_⟩
      rintro rfl
      exact absurd hbelow.length_le (by simp)

/-- The nearest of the stops above an address that satisfy a condition. -/
structure IsNearest (doc : Document) (P : Stop → Prop) (q : List Nat) (a : Stop) (p : List Nat) :
    Prop where
  above : doc.IsAbove q a p
  holds : P a
  nearest : ∀ q' a', doc.IsAbove q' a' p → P a' → q'.length ≤ q.length

/-- A part of the surroundings of a stop has the value that the nearest stop above gave it that sets
it, or the value from the start. -/
def IsInherited {α : Type} (doc : Document) (part : Surroundings → α) (sets : Stop → Option α)
    (p : List Nat) (s : Stop) : Prop :=
  (∃ q a, doc.IsNearest (fun a => (sets a).isSome = true) q a p ∧ sets a = some (part s.env)) ∨
    (∀ q a, doc.IsAbove q a p → sets a = none) ∧ part s.env = part {}

/-- What stops set for the stops directly below them is inherited by all below. -/
theorem isInherited {α : Type} {part : Surroundings → α} {sets : Stop → Option α}
    (hsets : ∀ s i next, (i, next) ∈ doc.stopsBelow s →
      part next.env = (sets s).getD (part s.env)) (h : doc.Comes doc.start p s) :
    doc.IsInherited part sets p s := by
  refine Comes.induction_down (.inr ⟨fun q a h => (not_isAbove_nil h).elim, rfl⟩) ?_ h
  intro p s i next hcomes hnext ih
  have habove {q : List Nat} {a : Stop} := isAbove_concat_iff (q := q) (a := a) (i := i) hcomes
  rw [IsInherited, hsets s i next hnext]
  cases hset : sets s with
  | some value =>
    refine .inl ⟨p, s, ⟨habove.mpr (.inl ⟨rfl, rfl⟩), by rw [hset]; rfl, ?_⟩, hset⟩
    intro q a h _
    rcases habove.mp h with ⟨rfl, _⟩ | h
    · exact Nat.le_refl _
    · exact h.below.length_le
  | none =>
    rw [Option.getD_none]
    rcases ih with ⟨q, a, hnearest, hvalue⟩ | ⟨hnone, hstart⟩
    · refine .inl ⟨q, a, ⟨habove.mpr (.inr hnearest.above), hnearest.holds, ?_⟩, hvalue⟩
      intro q' a' h hset'
      rcases habove.mp h with ⟨rfl, rfl⟩ | h
      · rw [hset] at hset'
        cases hset'
      · exact hnearest.nearest q' a' h hset'
    · refine .inr ⟨fun q a h => ?_, hstart⟩
      rcases habove.mp h with ⟨rfl, rfl⟩ | h
      · exact hset
      · exact hnone q a h

/-- The surroundings of a stop are those that the event above it leaves, one node further down. -/
theorem env_of_mem_stopsBelow {i : Nat} {next : Stop} (h : (i, next) ∈ doc.stopsBelow s) :
    ∃ earlier, next.env =
      ((doc.eventAt s).inside doc s.node s.env s.found.next).below s.node earlier := by
  obtain ⟨leg, _, _, _, rfl⟩ := mem_stopsAlong h
  exact ⟨_, rfl⟩

/-- Nearness depends on the stops that satisfy the condition only. -/
theorem IsNearest.congr {P Q : Stop → Prop} (h : doc.IsNearest P q a p) (hsame : ∀ a, P a ↔ Q a) :
    doc.IsNearest Q q a p :=
  ⟨h.above, (hsame a).mp h.holds, fun q' a' habove hQ => h.nearest q' a' habove ((hsame a').mpr hQ)⟩

/-- A stop opens a scope. -/
def Opens (doc : Document) (a : Stop) : Prop := (doc.eventAt a).opensScope = true

/-- What a stop sets as the declaration around what is below it: its index, and whether it is
a class. -/
def scopeSet? (doc : Document) (a : Stop) : Option (Option Nat × Bool) :=
  if (doc.eventAt a).opensScope then
    some (some a.found.next, ((doc.eventAt a).inside doc a.node a.env a.found.next).inClass)
  else none

/-- A stop sets a declaration when it opens a scope. -/
theorem isSome_scopeSet? : (doc.scopeSet? a).isSome = true ↔ doc.Opens a := by
  rw [scopeSet?, Opens]
  split <;> simp_all

/-- The declaration around a stop is that of the nearest stop above it that opens a scope, and it is
a class when the stop is inside of a class. -/
theorem Comes.enclosing (h : doc.Comes doc.start p s) :
    (∃ q a e, doc.IsNearest doc.Opens q a p ∧ s.env.enclosing = some a.found.next ∧
      (doc.recorded a).entries = a.found.entries ++ [e] ∧
      s.env.inClass = (e.declaration.kind == .classLike)) ∨
    (∀ q a, doc.IsAbove q a p → ¬ doc.Opens a) ∧ s.env.enclosing = none ∧ s.env.inClass = false := by
  have hinherited : doc.IsInherited (fun env => (env.enclosing, env.inClass)) doc.scopeSet? p s := by
    refine isInherited (fun s i next hnext => ?_) h
    obtain ⟨earlier, henv⟩ := env_of_mem_stopsBelow hnext
    rw [henv, scopeSet?]
    cases doc.eventAt s <;> rfl
  rcases hinherited with ⟨q, a, hnearest, hvalue⟩ | ⟨hnone, hstart⟩
  · have hopens : (doc.eventAt a).opensScope = true := isSome_scopeSet?.mp hnearest.holds
    obtain ⟨e, hentries, hkind⟩ := recorded_opensScope hopens
    rw [scopeSet?, if_pos hopens] at hvalue
    obtain ⟨henclosing, hclass⟩ := Prod.mk.inj (Option.some.inj hvalue)
    exact .inl ⟨q, a, e, hnearest.congr fun a => isSome_scopeSet?, henclosing.symm, hentries,
      hclass.symm.trans hkind.symm⟩
  · obtain ⟨henclosing, hclass⟩ := Prod.mk.inj hstart
    refine .inr ⟨fun q a habove hopens => ?_, henclosing, hclass⟩
    have hset := isSome_scopeSet?.mpr hopens
    rw [hnone q a habove] at hset
    cases hset

/-- A stop hides what is below it from the level of the module. -/
def Hides (doc : Document) (a : Stop) : Prop := doc.eventAt a = .hidden

/-- What a stop sets for whether there is a lambda or a comprehension around. -/
def hiddenSet? (doc : Document) (a : Stop) : Option Bool :=
  match doc.eventAt a with
  | .hidden => some true
  | _ => none

/-- A stop that is not inside of a lambda or a comprehension has none above it. -/
theorem Comes.not_hides (h : doc.Comes doc.start p s) (hnamed : s.env.anonymous = false)
    (habove : doc.IsAbove q a p) : ¬ doc.Hides a := by
  have hinherited : doc.IsInherited (·.anonymous) doc.hiddenSet? p s := by
    refine isInherited (fun s i next hnext => ?_) h
    obtain ⟨earlier, henv⟩ := env_of_mem_stopsBelow hnext
    rw [henv, hiddenSet?]
    cases doc.eventAt s <;> rfl
  intro hhides
  rcases hinherited with ⟨q, a, _, hvalue⟩ | ⟨hnone, _⟩
  · rw [hiddenSet?] at hvalue
    split at hvalue
    · cases (Option.some.inj hvalue).trans hnamed
    · cases hvalue
  · have hset := hnone q a habove
    rw [hiddenSet?, hhides] at hset
    cases hset

/-- What a stop sets for the owner of what is below it. -/
def ownerSet? (doc : Document) (a : Stop) : Option (Option String) :=
  match doc.eventAt a with
  | .methods => some (doc.simpleName? a.node "type")
  | .declared _ _ => some none
  | _ => none

/-- The owner at a stop is what the nearest function, class or block of methods above it sets. -/
theorem Comes.owner (h : doc.Comes doc.start p s) :
    doc.IsInherited (·.owner) doc.ownerSet? p s := by
  refine isInherited (fun s i next hnext => ?_) h
  obtain ⟨earlier, henv⟩ := env_of_mem_stopsBelow hnext
  rw [henv, ownerSet?]
  cases doc.eventAt s <;> rfl

end Document

end CodeAtlas
