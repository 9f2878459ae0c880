import CodeAtlas.Proofs.Phases

/-!
# Phases in order

A session can be worked on in place: an operation checks the phase, then fills the tables, then
enters the next phase, and it can fail on the way. Every check comes before the first change, so an
operation that fails leaves the session exactly as it was, and it fails exactly when it is not the
next one or when there is nothing to collect. Whatever operations are tried, only those that succeed
count, and they succeed in one order: the session is always the one that the first of collecting,
linking imports and linking calls lead to.
-/

namespace CodeAtlas

/-- A computation that changes a session in place. It may fail, and it leaves a session behind in
any case. -/
abbrev InPlace := ExceptT Error (StateM Session)

namespace InPlace

/-- Fail unless the session is in a phase. -/
def require (expected : Phase) : InPlace Unit := do
  let s ← get
  if s.phase = expected then pure () else throw (.phaseOrder expected s.phase)

/-- Change the tables. -/
def fill (change : Tables → Tables) : InPlace Unit :=
  modify fun s => { s with tables := change s.tables }

/-- Enter a phase. -/
def enter (phase : Phase) : InPlace Unit := modify fun s => { s with phase := phase }

/-- Add the facts of all files to the tables. -/
def collect (files : List FileFacts) : InPlace Unit := do
  require .pending
  if files.isEmpty then throw .emptyUnit
  fill fun tables => (orderedFiles files).foldl Tables.addFile tables
  enter .collected

/-- Link the imports in the tables. -/
def linkImports : InPlace Unit := do
  require .collected
  fill Tables.linkImports
  enter .importsLinked

/-- Link the calls in the tables. -/
def linkCalls : InPlace Unit := do
  require .importsLinked
  let s ← get
  fill fun tables => tables.linkCalls s.config
  enter .callsLinked

/-- What a computation reports, and the session that it leaves behind. -/
def outcome (action : InPlace Unit) (s : Session) : Except Error Unit × Session := action.run.run s

/-- In the phase that is asked for, the computation goes on. -/
theorem outcome_of_required {expected : Phase} {s : Session} (h : s.phase = expected)
    (rest : InPlace Unit) : outcome (do require expected; rest) s = rest.outcome s := by
  have hcheck : (require expected).run.run s = (.ok (), s) := by
    change (if s.phase = expected then (pure () : InPlace Unit)
      else throw (.phaseOrder expected s.phase)) s = _
    rw [if_pos h]
    rfl
  simp only [outcome, ExceptT.run_bind, StateT.run_bind, hcheck]
  rfl

/-- In another phase, the computation ends before anything is changed. -/
theorem outcome_of_not_required {expected : Phase} {s : Session} (h : s.phase ≠ expected)
    (rest : InPlace Unit) :
    outcome (do require expected; rest) s = (.error (.phaseOrder expected s.phase), s) := by
  have hcheck : (require expected).run.run s = (.error (.phaseOrder expected s.phase), s) := by
    change (if s.phase = expected then (pure () : InPlace Unit)
      else throw (.phaseOrder expected s.phase)) s = _
    rw [if_neg h]
    rfl
  simp only [outcome, ExceptT.run_bind, StateT.run_bind, hcheck]
  rfl

end InPlace

/-- The operations on a session before it is finished. -/
inductive Operation where
  | collect (files : List FileFacts)
  | linkImports
  | linkCalls

namespace Operation

/-- The phase in which an operation is the next one. -/
def due : Operation → Phase
  | collect _ => .pending
  | linkImports => .collected
  | linkCalls => .importsLinked

/-- Is there something to work on? Only collecting can lack it. -/
def hasInput : Operation → Bool
  | collect files => !files.isEmpty
  | linkImports | linkCalls => true

/-- The operation in place. -/
def inPlace : Operation → InPlace Unit
  | collect files => .collect files
  | linkImports => .linkImports
  | linkCalls => .linkCalls

/-- What an operation reports, and the session that it leaves behind. -/
def perform (op : Operation) (s : Session) : Except Error Unit × Session := op.inPlace.outcome s

/-- The operation as a step from session to session. -/
def step : Operation → Session → Except Error Session
  | collect files, s => s.collect files
  | linkImports, s => s.linkImports
  | linkCalls, s => s.linkCalls

/-- The session after an operation that succeeds. -/
def advance : Operation → Session → Session
  | collect files, s =>
    { s with phase := .collected, tables := (orderedFiles files).foldl Tables.addFile s.tables }
  | linkImports, s => { s with phase := .importsLinked, tables := s.tables.linkImports }
  | linkCalls, s => { s with phase := .callsLinked, tables := s.tables.linkCalls s.config }

/-- An operation at the wrong time changes nothing. -/
theorem perform_of_ne_due {op : Operation} {s : Session} (h : s.phase ≠ op.due) :
    op.perform s = (.error (.phaseOrder op.due s.phase), s) := by
  cases op <;> exact InPlace.outcome_of_not_required h _

/-- Collecting nothing changes nothing. -/
theorem perform_of_no_input {op : Operation} {s : Session} (hdue : s.phase = op.due)
    (hinput : op.hasInput = false) : op.perform s = (.error .emptyUnit, s) := by
  cases op with
  | collect files =>
    have hempty : files = [] := by simpa [hasInput] using hinput
    subst hempty
    exact InPlace.outcome_of_required hdue _
  | linkImports => cases hinput
  | linkCalls => cases hinput

/-- An operation at the right time, with something to work on, succeeds. -/
theorem perform_of_due {op : Operation} {s : Session} (hdue : s.phase = op.due)
    (hinput : op.hasInput = true) : op.perform s = (.ok (), op.advance s) := by
  cases op with
  | collect files =>
    cases files with
    | nil => cases hinput
    | cons file rest => exact InPlace.outcome_of_required hdue _
  | linkImports => exact InPlace.outcome_of_required hdue _
  | linkCalls => exact InPlace.outcome_of_required hdue _

/-- An operation that fails leaves the session as it was. -/
theorem eq_of_perform_error {op : Operation} {s next : Session} {e : Error}
    (h : op.perform s = (.error e, next)) : next = s := by
  by_cases hdue : s.phase = op.due
  · cases hinput : op.hasInput with
    | false =>
      rw [perform_of_no_input hdue hinput] at h
      exact (Prod.mk.inj h).2.symm
    | true =>
      rw [perform_of_due hdue hinput] at h
      cases (Prod.mk.inj h).1
  · rw [perform_of_ne_due hdue] at h
    exact (Prod.mk.inj h).2.symm

end Operation

namespace Session

/-- The session that some operations in a row leave behind. -/
def after (s : Session) (ops : List Operation) : Session :=
  ops.foldl (fun s op => (op.perform s).2) s

/-- The operations of a row that succeed. -/
def succeeding : Session → List Operation → List Operation
  | _, [] => []
  | s, op :: ops =>
    match op.perform s with
    | (.ok _, next) => op :: next.succeeding ops
    | (.error _, next) => next.succeeding ops

/-- Leaving out the operations that fail leads to the same session. -/
theorem after_succeeding (s : Session) (ops : List Operation) :
    s.after (s.succeeding ops) = s.after ops := by
  induction ops generalizing s with
  | nil => rfl
  | cons op ops ih =>
    unfold succeeding
    cases hperform : op.perform s with
    | mk report next =>
      have hafter : s.after (op :: ops) = next.after ops := by
        rw [after, List.foldl_cons, hperform]
        rfl
      rw [hafter]
      cases report with
      | ok _ =>
        rw [after, List.foldl_cons, hperform]
        exact ih next
      | error e =>
        rw [Operation.eq_of_perform_error hperform]
        exact ih s

end Session

/-- The operations that have succeeded since a session was fresh, and the session now. -/
inductive Passed (config : ResolutionConfig) : List Operation → Session → Prop where
  | pending : Passed config [] { config := config }
  | collected {files : List FileFacts} (hnonempty : files ≠ []) :
    Passed config [.collect files]
      { config := config, phase := .collected, tables := .ofFiles files }
  | importsLinked {files : List FileFacts} (hnonempty : files ≠ []) :
    Passed config [.collect files, .linkImports]
      { config := config, phase := .importsLinked, tables := (Tables.ofFiles files).linkImports }
  | callsLinked {files : List FileFacts} (hnonempty : files ≠ []) :
    Passed config [.collect files, .linkImports, .linkCalls]
      { config := config, phase := .callsLinked
        tables := (Tables.ofFiles files).linkImports.linkCalls config }

namespace Passed

variable {config : ResolutionConfig} {passed : List Operation} {s : Session}

/-- An operation that succeeds is the next one that has passed. -/
theorem advance (h : Passed config passed s) {op : Operation} (hdue : s.phase = op.due)
    (hinput : op.hasInput = true) : Passed config (passed ++ [op]) (op.advance s) := by
  cases h with
  | pending =>
    cases op with
    | collect files => exact .collected (by simpa [Operation.hasInput] using hinput)
    | linkImports => cases hdue
    | linkCalls => cases hdue
  | collected hnonempty =>
    cases op with
    | collect files => cases hdue
    | linkImports => exact .importsLinked hnonempty
    | linkCalls => cases hdue
  | importsLinked hnonempty =>
    cases op with
    | collect files => cases hdue
    | linkImports => cases hdue
    | linkCalls => exact .callsLinked hnonempty
  | callsLinked hnonempty => cases op <;> cases hdue

/-- After some operations in a row, those that succeed have passed. -/
theorem after (h : Passed config passed s) (ops : List Operation) :
    Passed config (passed ++ s.succeeding ops) (s.after ops) := by
  induction ops generalizing passed s with
  | nil =>
    rw [Session.succeeding, List.append_nil]
    exact h
  | cons op ops ih =>
    rw [Session.after, List.foldl_cons, Session.succeeding]
    by_cases hdue : s.phase = op.due
    · cases hinput : op.hasInput with
      | false =>
        rw [Operation.perform_of_no_input hdue hinput]
        exact ih h
      | true =>
        rw [Operation.perform_of_due hdue hinput, List.append_cons]
        exact ih (h.advance hdue hinput)
    · rw [Operation.perform_of_ne_due hdue]
      exact ih h

/-- Working in place and stepping from session to session agree. -/
theorem perform_eq (h : Passed config passed s) (op : Operation) :
    op.perform s =
      match op.step s with
      | .ok next => (.ok (), next)
      | .error e => (.error e, s) := by
  cases op with
  | collect files =>
    cases h with
    | pending => cases files <;> rfl
    | collected | importsLinked | callsLinked => rfl
  | linkImports => cases h <;> rfl
  | linkCalls => cases h <;> rfl

/-- A session can be finished when all operations have passed. -/
theorem finish_eq_ok_iff (h : Passed config passed s) (graph : Graph) :
    s.finish = .ok graph ↔
      ∃ files, passed = [.collect files, .linkImports, .linkCalls] ∧
        resolveFacts config files = .ok graph := by
  cases h with
  | pending | collected hnonempty | importsLinked hnonempty =>
    constructor
    · intro hfinish
      cases hfinish
    · rintro ⟨files, hpassed, _⟩
      cases hpassed
  | callsLinked hnonempty =>
    have hresolves := (completedRun_of_ne_nil config hnonempty).resolves
    constructor
    · intro hfinish
      exact ⟨_, rfl, hresolves.trans hfinish⟩
    · rintro ⟨files, hpassed, hgraph⟩
      cases hpassed
      exact hresolves.symm.trans hgraph

end Passed

/-- How an operation keeps to the phases in a session. -/
structure Operation.KeepsOrder (op : Operation) (s : Session) : Prop where
  succeeds : (op.perform s).1 = .ok () ↔ s.phase = op.due ∧ op.hasInput = true
  /-- At another time the operation reports both phases and changes nothing. -/
  misplaced : s.phase ≠ op.due → op.perform s = (.error (.phaseOrder op.due s.phase), s)
  /-- Collecting nothing is reported and changes nothing. -/
  empty : s.phase = op.due → op.hasInput = false → op.perform s = (.error .emptyUnit, s)
  /-- The step from session to session has the same outcome. -/
  agrees : op.perform s =
    match op.step s with
    | .ok next => (.ok (), next)
    | .error e => (.error e, s)

/-- Finishing a session keeps to the phases. -/
structure Session.FinishKeepsOrder (s : Session) : Prop where
  succeeds : (∃ graph, s.finish = .ok graph) ↔ s.phase = .callsLinked
  misplaced : s.phase ≠ .callsLinked → s.finish = .error (.phaseOrder .callsLinked s.phase)

/-- An operation keeps to the phases in every session that operations lead to. -/
theorem Passed.keepsOrder {config : ResolutionConfig} {passed : List Operation} {s : Session}
    (h : Passed config passed s) (op : Operation) : op.KeepsOrder s where
  succeeds := by
    constructor
    · intro hok
      by_cases hdue : s.phase = op.due
      · cases hinput : op.hasInput with
        | false =>
          rw [Operation.perform_of_no_input hdue hinput] at hok
          cases hok
        | true => exact ⟨hdue, rfl⟩
      · rw [Operation.perform_of_ne_due hdue] at hok
        cases hok
    · rintro ⟨hdue, hinput⟩
      rw [Operation.perform_of_due hdue hinput]
  misplaced := Operation.perform_of_ne_due
  empty := Operation.perform_of_no_input
  agrees := h.perform_eq op

/-- Finishing keeps to the phases in every session. -/
theorem Session.finishKeepsOrder (s : Session) : s.FinishKeepsOrder := by
  have hmisplaced : s.phase ≠ .callsLinked →
      s.finish = .error (.phaseOrder .callsLinked s.phase) := by
    intro hphase
    rw [finish, require, if_neg hphase]
    rfl
  refine ⟨⟨?_, ?_⟩, hmisplaced⟩
  · rintro ⟨graph, hfinish⟩
    by_cases hphase : s.phase = .callsLinked
    · exact hphase
    · rw [hmisplaced hphase] at hfinish
      cases hfinish
  · intro hphase
    refine ⟨.ofTables s.tables, ?_⟩
    rw [finish, require, if_pos hphase]
    rfl

/-- Whatever operations are tried on a session, those out of phase fail without a trace. A graph
comes out exactly when collecting, linking imports and linking calls have succeeded once each in
this order. -/
theorem phases_are_enforced (config : ResolutionConfig) (ops : List Operation) :
    let fresh : Session := { config := config }
    (∀ op : Operation, op.KeepsOrder (fresh.after ops)) ∧
      (fresh.after ops).FinishKeepsOrder ∧
      (fresh.after (fresh.succeeding ops)).finish = (fresh.after ops).finish ∧
      ∀ graph, (fresh.after ops).finish = .ok graph ↔
        ∃ files, fresh.succeeding ops = [.collect files, .linkImports, .linkCalls] ∧
          resolveFacts config files = .ok graph := by
  intro fresh
  have hpassed : Passed config (fresh.succeeding ops) (fresh.after ops) :=
    Passed.pending.after ops
  refine ⟨hpassed.keepsOrder, Session.finishKeepsOrder _, ?_, hpassed.finish_eq_ok_iff⟩
  rw [Session.after_succeeding]

end CodeAtlas
