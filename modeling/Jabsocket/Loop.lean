import Mathlib.Data.List.Basic

/-!
# Bounded loops

A `while (1)` loop is a body which either goes round again or leaves the loop.  `Loop.iterate`
runs the body with a bound on the number of rounds and reports `none` when the bound is
exhausted; `Loop.run` takes the bound from a measure.  When the measure drops in every round,
`Loop.run` goes round and leaves exactly as the unbounded loop does.
-/

namespace Jabsocket

/-- Outcome of one round of a loop body. -/
inductive Round (σ : Type*) where
  /-- Go round again from the given state. -/
  | again (state : σ)
  /-- Leave the loop in the given state. -/
  | leave (state : σ)
  deriving DecidableEq, Repr

/-- Two rounds have the same outcome, in states which are related according to it. -/
inductive Round.Related {σ τ : Type*} (before after : σ → τ → Prop) : Round σ → Round τ → Prop
  | again {state : σ} {other : τ} (related : before state other) :
      Related before after (.again state) (.again other)
  | leave {state : σ} {other : τ} (related : after state other) :
      Related before after (.leave state) (.leave other)

theorem Round.Related.exists_again {σ τ : Type*} {before after : σ → τ → Prop} {round : Round σ}
    {other : τ} (related : Related before after round (.again other)) :
    ∃ state, round = .again state ∧ before state other := by
  cases related with
  | again related => exact ⟨_, rfl, related⟩

theorem Round.Related.exists_leave {σ τ : Type*} {before after : σ → τ → Prop} {round : Round σ}
    {other : τ} (related : Related before after round (.leave other)) :
    ∃ state, round = .leave state ∧ after state other := by
  cases related with
  | leave related => exact ⟨_, rfl, related⟩

namespace Loop

variable {σ : Type*}

/-- Run at most `rounds` rounds of a loop body. -/
def iterate (body : σ → Round σ) : Nat → σ → Option σ
  | 0, _ => none
  | rounds + 1, state =>
      match body state with
      | .again next => iterate body rounds next
      | .leave final => some final

/-- Run a loop body with the bound given by a measure on the state. -/
def run (body : σ → Round σ) (measure : σ → Nat) (state : σ) : σ :=
  (iterate body (measure state + 1) state).getD state

/-- Every round which goes round again lowers the measure. -/
def Decreasing (body : σ → Round σ) (measure : σ → Nat) : Prop :=
  ∀ state next, body state = .again next → measure next < measure state

theorem iterate_succ (body : σ → Round σ) (rounds : Nat) (state : σ) :
    iterate body (rounds + 1) state =
      match body state with
      | .again next => iterate body rounds next
      | .leave final => some final := rfl

/-- More rounds than needed do not change the outcome. -/
theorem iterate_mono {body : σ → Round σ} {rounds more : Nat} {state final : σ}
    (enough : rounds ≤ more) (execution : iterate body rounds state = some final) :
    iterate body more state = some final := by
  induction rounds generalizing more state with
  | zero => simp [iterate] at execution
  | succ rounds ih =>
      obtain ⟨more, rfl⟩ := Nat.exists_eq_add_of_le enough
      rw [show rounds + 1 + more = (rounds + more) + 1 by omega, iterate_succ]
      rw [iterate_succ] at execution
      cases outcome : body state with
      | again next =>
          rw [outcome] at execution
          exact ih (by omega) execution
      | leave last =>
          rw [outcome] at execution
          exact execution

/-- A decreasing measure bounds the number of rounds. -/
theorem iterate_terminates {body : σ → Round σ} {measure : σ → Nat}
    (decreasing : Decreasing body measure) {rounds : Nat} {state : σ}
    (enough : measure state < rounds) :
    ∃ final, iterate body rounds state = some final := by
  induction rounds generalizing state with
  | zero => omega
  | succ rounds ih =>
      rw [iterate_succ]
      cases outcome : body state with
      | again next =>
          have drop := decreasing state next outcome
          exact ih (by omega)
      | leave final => exact ⟨final, rfl⟩

/-- Leaving the loop. -/
theorem run_of_leave {body : σ → Round σ} (measure : σ → Nat) {state final : σ}
    (outcome : body state = .leave final) : run body measure state = final := by
  rw [run, iterate_succ, outcome]
  rfl

/-- Going round again, when the measure decreases. -/
theorem run_of_again {body : σ → Round σ} {measure : σ → Nat}
    (decreasing : Decreasing body measure) {state next : σ}
    (outcome : body state = .again next) : run body measure state = run body measure next := by
  have drop := decreasing state next outcome
  obtain ⟨final, execution⟩ :=
    iterate_terminates decreasing (Nat.lt_succ_self (measure next))
  have longer : iterate body (measure state) next = some final :=
    iterate_mono (by omega) execution
  rw [run, iterate_succ, outcome]
  simp [run, longer, execution]

/-- A loop does the same from two states from which its first round does the same. -/
theorem run_eq_of_body_eq {body : σ → Round σ} {measure : σ → Nat}
    (decreasing : Decreasing body measure) {state other : σ} (same : body state = body other) :
    run body measure state = run body measure other := by
  cases outcome : body other with
  | again next =>
      rw [run_of_again decreasing outcome, run_of_again decreasing (same.trans outcome)]
  | leave final => rw [run_of_leave measure outcome, run_of_leave measure (same.trans outcome)]

/-- A property of the state which every round keeps holds when the loop is left. -/
theorem run_induction {body : σ → Round σ} {measure : σ → Nat} (before after : σ → Prop)
    (decreasing : Decreasing body measure)
    (again : ∀ state next, before state → body state = .again next → before next)
    (leave : ∀ state final, before state → body state = .leave final → after final)
    {state : σ} (start : before state) : after (run body measure state) := by
  induction bound : measure state using Nat.strongRecOn generalizing state with
  | _ bound ih =>
      cases outcome : body state with
      | leave final =>
          rw [run_of_leave measure outcome]
          exact leave state final start outcome
      | again next =>
          have drop := decreasing state next outcome
          rw [run_of_again decreasing outcome]
          exact ih (measure next) (by omega) (again state next start outcome) rfl

/-- Two loops whose rounds are related end in related states. -/
theorem run_related {τ : Type*} {body : σ → Round σ} {measure : σ → Nat} {body' : τ → Round τ}
    {measure' : τ → Nat} {before after : σ → τ → Prop} (decreasing : Decreasing body measure)
    (decreasing' : Decreasing body' measure')
    (rounds : ∀ state other, before state other →
      Round.Related before after (body state) (body' other))
    {state : σ} {other : τ} (start : before state other) :
    after (run body measure state) (run body' measure' other) := by
  induction bound : measure state using Nat.strongRecOn generalizing state other with
  | _ bound ih =>
      have related := rounds state other start
      cases outcome : body state with
      | leave final =>
          cases outcome' : body' other with
          | again next =>
              rw [outcome, outcome'] at related
              cases related
          | leave final' =>
              rw [outcome, outcome'] at related
              cases related with
              | leave related =>
                  rw [run_of_leave measure outcome, run_of_leave measure' outcome']
                  exact related
      | again next =>
          cases outcome' : body' other with
          | leave final' =>
              rw [outcome, outcome'] at related
              cases related
          | again next' =>
              rw [outcome, outcome'] at related
              cases related with
              | again related =>
                  have drop := decreasing state next outcome
                  rw [run_of_again decreasing outcome, run_of_again decreasing' outcome']
                  exact ih (measure next) (by omega) related rfl

/-- The states in which a round of the loop begins. -/
inductive Visits (body : σ → Round σ) : σ → σ → Prop
  | start {state : σ} : Visits body state state
  | round {state next visited : σ} (again : body state = .again next)
      (later : Visits body next visited) : Visits body state visited

theorem Visits.again {body : σ → Round σ} {state visited next : σ}
    (visits : Visits body state visited) (again : body visited = .again next) :
    Visits body state next := by
  induction visits with
  | start => exact .round again .start
  | round earlier later ih => exact .round earlier (ih again)

/-- The loop ends as it ends from every state which it visits. -/
theorem Visits.run_eq {body : σ → Round σ} {measure : σ → Nat}
    (decreasing : Decreasing body measure) {state visited : σ}
    (visits : Visits body state visited) : run body measure state = run body measure visited := by
  induction visits with
  | start => rfl
  | round again later ih => exact (run_of_again decreasing again).trans ih

/-- Two bodies which agree on the states which one of them visits go the same rounds. -/
theorem iterate_congr {body body' : σ → Round σ} {state : σ}
    (same : ∀ visited, Visits body' state visited → body visited = body' visited) (rounds : Nat) :
    iterate body rounds state = iterate body' rounds state := by
  induction rounds generalizing state with
  | zero => rfl
  | succ rounds ih =>
      rw [iterate_succ, iterate_succ, same state .start]
      cases outcome : body' state with
      | again next => exact ih fun visited visits => same visited (.round outcome visits)
      | leave final => rfl

theorem run_congr {body body' : σ → Round σ} (measure : σ → Nat) {state : σ}
    (same : ∀ visited, Visits body' state visited → body visited = body' visited) :
    run body measure state = run body' measure state := by
  rw [run, run, iterate_congr same]

/-- They visit the same states. -/
theorem visits_congr {body body' : σ → Round σ} {state : σ}
    (same : ∀ visited, Visits body' state visited → body visited = body' visited) {visited : σ} :
    Visits body state visited ↔ Visits body' state visited := by
  constructor
  · intro visits
    induction visits with
    | start => exact .start
    | round again later ih =>
        have again' := (same _ .start).symm.trans again
        exact .round again' (ih fun visited visits => same visited (.round again' visits))
  · intro visits
    induction visits with
    | start => exact .start
    | round again later ih =>
        exact .round ((same _ .start).trans again)
          (ih fun visited visits => same visited (.round again visits))

/-- When the measure drops along the states which the loop visits, the loop is left from one of
them. -/
theorem exists_leave_of_visits {body : σ → Round σ} {measure : σ → Nat} {state : σ}
    (drops : ∀ visited next, Visits body state visited → body visited = .again next →
      measure next < measure visited) :
    ∃ last final, Visits body state last ∧ body last = .leave final ∧
      iterate body (measure state + 1) state = some final := by
  induction bound : measure state using Nat.strongRecOn generalizing state with
  | _ bound ih =>
      cases outcome : body state with
      | leave final => exact ⟨state, final, .start, outcome, by rw [iterate_succ, outcome]⟩
      | again next =>
          have drop := drops state next .start outcome
          obtain ⟨last, final, visits, leave, execution⟩ := ih (measure next) (by omega)
            (fun visited after visits => drops visited after (.round outcome visits)) rfl
          refine ⟨last, final, .round outcome visits, leave, ?_⟩
          rw [iterate_succ, outcome]
          exact iterate_mono (by omega) execution

/-- What every round keeps, whether it goes round again or leaves, holds after any loop. -/
theorem run_invariant {body : σ → Round σ} (measure : σ → Nat) {invariant : σ → Prop}
    (again : ∀ state next, invariant state → body state = .again next → invariant next)
    (leave : ∀ state final, invariant state → body state = .leave final → invariant final)
    {state : σ} (start : invariant state) : invariant (run body measure state) := by
  have bounded (rounds : Nat) (first : σ) (kept : invariant first) :
      invariant ((iterate body rounds first).getD state) := by
    induction rounds generalizing first with
    | zero => exact start
    | succ rounds ih =>
        rw [iterate_succ]
        cases outcome : body first with
        | again next => exact ih next (again first next kept outcome)
        | leave final => exact leave first final kept outcome
  exact bounded _ state start

/-- A loop which goes round again from every state of some kind, to another one, never ends. -/
theorem iterate_eq_none {body : σ → Round σ} {kind : σ → Prop}
    (again : ∀ state, kind state → ∃ next, body state = .again next ∧ kind next) {state : σ}
    (start : kind state) (rounds : Nat) : iterate body rounds state = none := by
  induction rounds generalizing state with
  | zero => rfl
  | succ rounds ih =>
      obtain ⟨next, outcome, kept⟩ := again state start
      rw [iterate_succ, outcome]
      exact ih kept

/-- A fault which only a last round can leave behind, and leaves behind exactly in the states of a
given kind, is found after the loop exactly when such a state was visited. -/
theorem run_faulty_iff {body : σ → Round σ} {measure : σ → Nat} {invariant fault trigger : σ → Prop}
    (decreasing : Decreasing body measure)
    (again : ∀ state next, invariant state → body state = .again next →
      invariant next ∧ ¬ trigger state)
    (leave : ∀ state final, invariant state → body state = .leave final →
      (fault final ↔ trigger state))
    {state : σ} (start : invariant state) :
    fault (run body measure state) ↔ ∃ visited, Visits body state visited ∧ trigger visited := by
  induction bound : measure state using Nat.strongRecOn generalizing state with
  | _ bound ih =>
      cases outcome : body state with
      | leave final =>
          rw [run_of_leave measure outcome, leave state final start outcome]
          refine ⟨fun triggered => ⟨state, .start, triggered⟩, ?_⟩
          rintro ⟨visited, visits, triggered⟩
          cases visits with
          | start => exact triggered
          | round again later => simp [outcome] at again
      | again next =>
          have drop := decreasing state next outcome
          obtain ⟨kept, quiet⟩ := again state next start outcome
          rw [run_of_again decreasing outcome, ih (measure next) (by omega) kept rfl]
          constructor
          · rintro ⟨visited, visits, triggered⟩
            exact ⟨visited, .round outcome visits, triggered⟩
          · rintro ⟨visited, visits, triggered⟩
            cases visits with
            | start => exact absurd triggered quiet
            | round again later =>
                obtain rfl : next = _ := by simpa [outcome] using again
                exact ⟨visited, later, triggered⟩

end Loop
end Jabsocket
