import Mathlib.Data.List.Basic
import Mathlib.Tactic.Common

/-!
# Executions of a labelled machine

A machine is a partial step function; a label is enabled when the step is defined.  An execution
follows a list of labels.  Properties of the states reached follow from one step at a time.
-/

namespace Jabsocket

namespace Execution

variable {σ ι : Type*} (step : σ → ι → Option σ)

/-- Follow a list of labels, if all of them are enabled in turn. -/
def run : σ → List ι → Option σ
  | state, [] => some state
  | state, label :: labels => (step state label).bind fun next => run next labels

/-- Every step of an execution meets a condition on the state before it and its label. -/
def Guarded (guard : σ → ι → Prop) : σ → List ι → Prop
  | _, [] => True
  | state, label :: labels =>
      guard state label ∧ ∀ next, step state label = some next → Guarded guard next labels

/-- Whether all steps are guarded can be computed by following the labels. -/
instance decidableGuarded {guard : σ → ι → Prop} [∀ state label, Decidable (guard state label)] :
    ∀ state labels, Decidable (Guarded step guard state labels)
  | _, [] => isTrue trivial
  | state, label :: labels =>
      match stepped : step state label with
      | none => decidable_of_iff (guard state label) (by simp [Guarded, stepped])
      | some next =>
          have : Decidable (Guarded step guard next labels) := decidableGuarded next labels
          decidable_of_iff (guard state label ∧ Guarded step guard next labels)
            (by simp [Guarded, stepped])

/-- Whether an execution ends in a state with a property can be computed. -/
instance decidableEnds {property : σ → Prop} [DecidablePred property] (state : σ)
    (labels : List ι) : Decidable (∃ final, run step state labels = some final ∧ property final) :=
  match run step state labels with
  | none => isFalse (by simp)
  | some final => decidable_of_iff (property final) (by simp)

/-- A property holds in the first state of an execution and after each of its steps. -/
def Always (property : σ → Prop) (state : σ) (labels : List ι) : Prop :=
  ∀ earlier later reached, labels = earlier ++ later →
    run step state earlier = some reached → property reached

variable {step}

theorem run_nil {state final : σ} : run step state [] = some final ↔ state = final :=
  Option.some_inj

theorem run_cons {state final : σ} {label : ι} {labels : List ι} :
    run step state (label :: labels) = some final ↔
      ∃ next, step state label = some next ∧ run step next labels = some final := by
  rw [run, Option.bind_eq_some_iff]

theorem run_append {state final : σ} {first second : List ι} :
    run step state (first ++ second) = some final ↔
      ∃ middle, run step state first = some middle ∧ run step middle second = some final := by
  induction first generalizing state with
  | nil => simp [run]
  | cons label first ih =>
      rw [List.cons_append, run_cons]
      constructor
      · rintro ⟨next, stepped, rest⟩
        obtain ⟨middle, before, after⟩ := ih.mp rest
        exact ⟨middle, run_cons.mpr ⟨next, stepped, before⟩, after⟩
      · rintro ⟨middle, before, after⟩
        obtain ⟨next, stepped, rest⟩ := run_cons.mp before
        exact ⟨next, stepped, ih.mpr ⟨middle, rest, after⟩⟩

/-- When every label is always enabled, every list of labels can be followed. -/
theorem exists_run_of_total (total : ∀ state label, (step state label).isSome = true) (state : σ)
    (labels : List ι) : ∃ final, run step state labels = some final := by
  induction labels generalizing state with
  | nil => exact ⟨state, rfl⟩
  | cons label labels ih =>
      obtain ⟨next, stepped⟩ := Option.isSome_iff_exists.mp (total state label)
      obtain ⟨final, execution⟩ := ih next
      exact ⟨final, run_cons.mpr ⟨next, stepped, execution⟩⟩

/-- A property which every step keeps holds in every state reached. -/
theorem invariant_of_run {invariant : σ → Prop}
    (keeps : ∀ state label next, invariant state → step state label = some next → invariant next)
    {state final : σ} {labels : List ι} (start : invariant state)
    (execution : run step state labels = some final) : invariant final := by
  induction labels generalizing state with
  | nil =>
      obtain rfl := run_nil.mp execution
      exact start
  | cons label labels ih =>
      obtain ⟨next, stepped, rest⟩ := run_cons.mp execution
      exact ih (keeps state label next start stepped) rest

theorem always_cons {property : σ → Prop} {state next : σ} {label : ι} {labels : List ι}
    (stepped : step state label = some next) :
    Always step property state (label :: labels) ↔
      property state ∧ Always step property next labels := by
  constructor
  · intro always
    refine ⟨always [] (label :: labels) state rfl rfl, fun earlier later reached split_labels
      execution => ?_⟩
    exact always (label :: earlier) later reached (by rw [split_labels, List.cons_append])
      (run_cons.mpr ⟨next, stepped, execution⟩)
  · rintro ⟨first, rest⟩ earlier later reached split_labels execution
    cases earlier with
    | nil =>
        obtain rfl := run_nil.mp execution
        exact first
    | cons head earlier =>
        obtain ⟨rfl, rfl⟩ := List.cons.inj split_labels
        obtain ⟨middle, first_step, later_steps⟩ := run_cons.mp execution
        obtain rfl : next = middle := Option.some.inj (stepped.symm.trans first_step)
        exact rest earlier later reached rfl later_steps

/-- When guarded steps keep an invariant and the property, and the other steps lose the property, an
execution stays good exactly when all of its steps are guarded.  Something may be assumed about its
steps. -/
theorem always_iff_guarded_of_assumed {invariant property : σ → Prop}
    {assumed guard : σ → ι → Prop}
    (keeps : ∀ state label next, invariant state → assumed state label → guard state label →
      step state label = some next → invariant next ∧ property next)
    (breaks : ∀ state label next, invariant state → assumed state label →
      step state label = some next → property next → guard state label)
    {state final : σ} {labels : List ι} (start : invariant state) (first : property state)
    (execution : run step state labels = some final)
    (assumptions : Guarded step assumed state labels) :
    Always step property state labels ↔ Guarded step guard state labels := by
  induction labels generalizing state with
  | nil =>
      refine ⟨fun _ => trivial, fun _ earlier later reached split_labels execution => ?_⟩
      obtain ⟨rfl, -⟩ := List.append_eq_nil_iff.mp split_labels.symm
      obtain rfl := run_nil.mp execution
      exact first
  | cons label labels ih =>
      obtain ⟨next, stepped, rest⟩ := run_cons.mp execution
      obtain ⟨assumption, later_assumptions⟩ := assumptions
      have next_assumptions := later_assumptions next stepped
      rw [always_cons stepped]
      constructor
      · rintro ⟨-, always⟩
        have next_good : property next := always [] labels next rfl rfl
        have guarded := breaks state label next start assumption stepped next_good
        have kept := (keeps state label next start assumption guarded stepped).1
        refine ⟨guarded, fun other other_step => ?_⟩
        obtain rfl : next = other := Option.some.inj (stepped.symm.trans other_step)
        exact (ih kept next_good rest next_assumptions).mp always
      · rintro ⟨guarded, later⟩
        obtain ⟨kept, next_good⟩ := keeps state label next start assumption guarded stepped
        exact ⟨first, (ih kept next_good rest next_assumptions).mpr (later next stepped)⟩

theorem guarded_of_forall {guard : σ → ι → Prop} (always : ∀ state label, guard state label)
    (state : σ) (labels : List ι) : Guarded step guard state labels := by
  induction labels generalizing state with
  | nil => trivial
  | cons label labels ih => exact ⟨always state label, fun next _ => ih next⟩

theorem Guarded.and {guard other : σ → ι → Prop} {state : σ} {labels : List ι}
    (guarded : Guarded step guard state labels) (also : Guarded step other state labels) :
    Guarded step (fun state label => guard state label ∧ other state label) state labels := by
  induction labels generalizing state with
  | nil => trivial
  | cons label labels ih =>
      exact ⟨⟨guarded.1, also.1⟩, fun next stepped =>
        ih (guarded.2 next stepped) (also.2 next stepped)⟩

/-- The first steps of a guarded execution are guarded. -/
theorem Guarded.of_append {guard : σ → ι → Prop} {state : σ} {first second : List ι}
    (guarded : Guarded step guard state (first ++ second)) : Guarded step guard state first := by
  induction first generalizing state with
  | nil => trivial
  | cons label first ih =>
      exact ⟨guarded.1, fun next stepped => ih (guarded.2 next stepped)⟩

/-- The later steps of a guarded execution are guarded. -/
theorem Guarded.later {guard : σ → ι → Prop} {state next : σ} {first second : List ι}
    (guarded : Guarded step guard state (first ++ second))
    (reached : run step state first = some next) : Guarded step guard next second := by
  induction first generalizing state with
  | nil =>
      obtain rfl := run_nil.mp reached
      exact guarded
  | cons label first ih =>
      obtain ⟨middle, stepped, rest⟩ := run_cons.mp reached
      exact ih (guarded.2 middle stepped) rest

/-- The same without assumptions. -/
theorem always_iff_guarded_of_breaks {invariant property : σ → Prop} {guard : σ → ι → Prop}
    (keeps : ∀ state label next, invariant state → guard state label →
      step state label = some next → invariant next ∧ property next)
    (breaks : ∀ state label next, invariant state → step state label = some next →
      property next → guard state label)
    {state final : σ} {labels : List ι} (start : invariant state) (first : property state)
    (execution : run step state labels = some final) :
    Always step property state labels ↔ Guarded step guard state labels := by
  refine always_iff_guarded_of_assumed ?_ ?_ start first execution
    (guarded_of_forall (fun _ _ => trivial) state labels)
  · exact fun state label next sound _ => keeps state label next sound
  · exact fun state label next sound _ => breaks state label next sound

/-- When a step leads from a good state to a good state exactly under a guard, an execution stays
good exactly when all of its steps are guarded. -/
theorem always_iff_guarded {invariant property : σ → Prop} {guard : σ → ι → Prop}
    (keeps : ∀ state label next, invariant state → step state label = some next → invariant next)
    (good : ∀ state label next, invariant state → property state →
      step state label = some next → (property next ↔ guard state label))
    {state final : σ} {labels : List ι} (start : invariant state) (first : property state)
    (execution : run step state labels = some final) :
    Always step property state labels ↔ Guarded step guard state labels := by
  refine @always_iff_guarded_of_breaks _ _ _ (fun state => invariant state ∧ property state) _ _
    ?_ ?_ _ _ _ ⟨start, first⟩ first execution
  · rintro state label next ⟨sound, held⟩ guarded stepped
    have next_good := (good state label next sound held stepped).mpr guarded
    exact ⟨⟨keeps state label next sound stepped, next_good⟩, next_good⟩
  · rintro state label next ⟨sound, held⟩ stepped next_good
    exact (good state label next sound held stepped).mp next_good

/-- In the states which satisfy an invariant, a guard can be replaced by one which follows from
it. -/
theorem Guarded.imp {invariant : σ → Prop} {guard other : σ → ι → Prop}
    (keeps : ∀ state label next, invariant state → step state label = some next → invariant next)
    (follows : ∀ state label, invariant state → guard state label → other state label)
    {state : σ} {labels : List ι} (start : invariant state)
    (guarded : Guarded step guard state labels) : Guarded step other state labels := by
  induction labels generalizing state with
  | nil => trivial
  | cons label labels ih =>
      exact ⟨follows state label start guarded.1, fun next stepped =>
        ih (keeps state label next start stepped) (guarded.2 next stepped)⟩

/-- Two guards which say the same in the states which satisfy an invariant guard the same
executions, when the guarded steps keep the invariant.  Something may be assumed about the steps. -/
theorem guarded_congr_of_assumed {invariant : σ → Prop} {assumed guard other : σ → ι → Prop}
    (same : ∀ state label, invariant state → assumed state label →
      (guard state label ↔ other state label))
    (keeps : ∀ state label next, invariant state → assumed state label → other state label →
      step state label = some next → invariant next)
    {state : σ} {labels : List ι} (start : invariant state)
    (assumptions : Guarded step assumed state labels) :
    Guarded step guard state labels ↔ Guarded step other state labels := by
  induction labels generalizing state with
  | nil => rfl
  | cons label labels ih =>
      obtain ⟨assumption, later⟩ := assumptions
      rw [Guarded, Guarded, same state label start assumption]
      refine and_congr_right fun guarded => forall_congr' fun next => ?_
      exact imp_congr_right fun stepped =>
        ih (keeps state label next start assumption guarded stepped) (later next stepped)

section Congr

variable {step' : σ → ι → Option σ} {assumed : σ → ι → Prop}
  (same : ∀ state label, assumed state label → step state label = step' state label)

include same

/-- Two machines which agree on the steps which meet a condition have the same executions of such
steps. -/
theorem run_congr {state : σ} {labels : List ι} (guarded : Guarded step assumed state labels) :
    run step state labels = run step' state labels := by
  induction labels generalizing state with
  | nil => rfl
  | cons label labels ih =>
      obtain ⟨first, later⟩ := guarded
      rw [run, run, ← same state label first]
      cases stepped : step state label with
      | none => rfl
      | some next => exact ih (later next stepped)

theorem guarded_step_congr {guard : σ → ι → Prop} {state : σ} {labels : List ι}
    (guarded : Guarded step assumed state labels) :
    Guarded step guard state labels ↔ Guarded step' guard state labels := by
  induction labels generalizing state with
  | nil => rfl
  | cons label labels ih =>
      obtain ⟨first, later⟩ := guarded
      rw [Guarded, Guarded, ← same state label first]
      exact and_congr_right fun _ => forall_congr' fun next =>
        imp_congr_right fun stepped => ih (later next stepped)

theorem always_step_congr {property : σ → Prop} {state : σ} {labels : List ι}
    (guarded : Guarded step assumed state labels) :
    Always step property state labels ↔ Always step' property state labels := by
  refine forall_congr' fun earlier => forall_congr' fun later => forall_congr' fun reached =>
    forall_congr' fun split_labels => ?_
  subst split_labels
  rw [run_congr same guarded.of_append]

end Congr

/-- A property which a step can only bring about holds at the end of an execution when it held at
the beginning or one of the steps brought it about. -/
theorem iff_caused_of_run {property : σ → Prop} {cause : σ → ι → Prop}
    (changes : ∀ state label next, step state label = some next →
      (property next ↔ property state ∨ cause state label))
    {state final : σ} {labels : List ι} (execution : run step state labels = some final) :
    property final ↔ property state ∨ ∃ earlier label later reached,
      labels = earlier ++ label :: later ∧ run step state earlier = some reached ∧
        cause reached label := by
  induction labels generalizing state with
  | nil =>
      obtain rfl := run_nil.mp execution
      simp
  | cons label labels ih =>
      obtain ⟨next, stepped, rest⟩ := run_cons.mp execution
      rw [ih rest, changes state label next stepped, or_assoc]
      refine or_congr_right ⟨?_, ?_⟩
      · rintro (caused | ⟨earlier, other, later, reached, rfl, before, caused⟩)
        · exact ⟨[], label, labels, state, rfl, rfl, caused⟩
        · exact ⟨label :: earlier, other, later, reached, rfl,
            run_cons.mpr ⟨next, stepped, before⟩, caused⟩
      · rintro ⟨earlier, other, later, reached, split_labels, before, caused⟩
        cases earlier with
        | nil =>
            obtain ⟨rfl, rfl⟩ := List.cons.inj split_labels
            obtain rfl := run_nil.mp before
            exact Or.inl caused
        | cons head earlier =>
            obtain ⟨rfl, rfl⟩ := List.cons.inj split_labels
            obtain ⟨middle, first_step, before⟩ := run_cons.mp before
            obtain rfl : next = middle := Option.some.inj (stepped.symm.trans first_step)
            exact Or.inr ⟨earlier, other, later, reached, rfl, before, caused⟩

/-- A property which no step restores holds throughout an execution exactly when it holds at its
end. -/
theorem always_iff_last {invariant property : σ → Prop}
    (keeps : ∀ state label next, invariant state → step state label = some next → invariant next)
    (lasting : ∀ state label next, invariant state → step state label = some next →
      property next → property state)
    {state final : σ} {labels : List ι} (start : invariant state)
    (execution : run step state labels = some final) :
    property final ↔ Always step property state labels := by
  refine ⟨fun last earlier later reached split_labels before => ?_, fun always =>
    always labels [] final (by simp) execution⟩
  subst split_labels
  obtain ⟨middle, first, rest⟩ := run_append.mp execution
  obtain rfl : reached = middle := Option.some.inj (before.symm.trans first)
  have kept := invariant_of_run keeps start first
  clear before first execution
  induction later generalizing reached with
  | nil =>
      obtain rfl := run_nil.mp rest
      exact last
  | cons label later ih =>
      obtain ⟨next, stepped, rest⟩ := run_cons.mp rest
      exact lasting reached label next kept stepped
        (ih next rest (keeps reached label next kept stepped))

end Execution

end Jabsocket
