/-
Module: OsSimulator.Lib.Transition
Purpose: Runs of a labelled partial step function, and the induction principles that carry an
  invariant along a run.  Nothing here depends on what is being stepped.
Main exports: Transition.run, Transition.Meets, Transition.Throughout, Transition.Reachable,
  Transition.invariant_of_run, Transition.invariant_of_guarded_run
-/
import Mathlib.Data.List.Basic

namespace Transition

variable {State Event : Type}

/-- Take the steps `events` one after the other; `none` as soon as one of them is not enabled. -/
def run (step : State → Event → Option State) (state : State) : List Event → Option State
  | [] => some state
  | event :: events =>
      match step state event with
      | some next => run step next events
      | none => none

/-- Every step the run takes satisfies `guard` in the state it is taken from. -/
def Meets (step : State → Event → Option State) (guard : State → Event → Prop)
    (state : State) : List Event → Prop
  | [] => True
  | event :: events =>
      guard state event ∧
        match step state event with
        | some next => Meets step guard next events
        | none => True

instance Meets.decidable (step : State → Event → Option State) (guard : State → Event → Prop)
    [decideGuard : ∀ state event, Decidable (guard state event)] :
    ∀ state events, Decidable (Meets step guard state events)
  | _, [] => isTrue trivial
  | state, event :: events =>
      match taken : step state event with
      | some next =>
          have := Meets.decidable step guard next events
          decidable_of_iff (guard state event ∧ Meets step guard next events)
            (by simp [Meets, taken])
      | none => decidable_of_iff (guard state event) (by simp [Meets, taken])

/-- Every state the run goes through, both ends included, satisfies `property`. -/
def Throughout (step : State → Event → Option State) (property : State → Prop)
    (state : State) : List Event → Prop
  | [] => property state
  | event :: events =>
      property state ∧
        match step state event with
        | some next => Throughout step property next events
        | none => True

/-- Some sequence of steps leads from `start` to `state`. -/
def Reachable (step : State → Event → Option State) (start state : State) : Prop :=
  ∃ events, run step start events = some state

variable {step : State → Event → Option State} {start state next : State}

@[simp] theorem run_nil : run step state [] = some state := rfl

theorem run_cons {event : Event} {events : List Event} :
    run step state (event :: events) = (step state event).bind (run step · events) := by
  cases taken : step state event <;> simp [run, taken]

/-- A run splits at any point. -/
theorem run_append {first second : List Event} :
    run step state (first ++ second) = (run step state first).bind (run step · second) := by
  induction first generalizing state with
  | nil => simp [run]
  | cons event events ih =>
      rw [List.cons_append, run_cons, run_cons]
      cases step state event with
      | none => rfl
      | some next => exact ih

/-- A run of one system is a run of another one in which it is embedded step by step. -/
theorem run_embed {Other OtherEvent : Type} {other : Other → OtherEvent → Option Other}
    (embed : State → Other) (label : Event → OtherEvent)
    (steps : ∀ {state event next}, step state event = some next →
      other (embed state) (label event) = some (embed next))
    {events : List Event} (reaches : run step start events = some state) :
    run other (embed start) (events.map label) = some (embed state) := by
  induction events generalizing start with
  | nil =>
      obtain rfl : start = state := by simpa using reaches
      rfl
  | cons event events ih =>
      rw [run_cons] at reaches
      obtain ⟨middle, taken, rest⟩ := Option.bind_eq_some_iff.mp reaches
      rw [List.map_cons, run_cons, steps taken, Option.bind_some]
      exact ih rest

/-- If every step of one system is matched by some steps of another one, so that the two stay related,
    then every run is matched by a run. -/
theorem exists_run_of_simulation {Other OtherEvent : Type} {other : Other → OtherEvent → Option Other}
    (related : State → Other → Prop)
    (steps : ∀ {state event next image}, related state image → step state event = some next →
      ∃ block after, run other image block = some after ∧ related next after)
    {image : Other} {events : List Event} (start_related : related start image)
    (reaches : run step start events = some state) :
    ∃ images last, run other image images = some last ∧ related state last := by
  induction events generalizing start image with
  | nil =>
      obtain rfl : start = state := by simpa using reaches
      exact ⟨[], image, rfl, start_related⟩
  | cons event events ih =>
      rw [run_cons] at reaches
      obtain ⟨middle, taken, rest⟩ := Option.bind_eq_some_iff.mp reaches
      obtain ⟨block, after, ran, middle_related⟩ := steps start_related taken
      obtain ⟨images, last, ranOn, last_related⟩ := ih middle_related rest
      exact ⟨block ++ images, last, by rw [run_append, ran]; exact ranOn, last_related⟩

/-- If two systems take related steps while the other one keeps an invariant, which it does under a guard,
    then they have related runs of the same events, or none has one. -/
theorem run_rel {Other : Type} {other : Other → Event → Option Other} {guard : Other → Event → Prop}
    (related : State → Other → Prop) (invariant : Other → Prop)
    (steps : ∀ {state image event}, related state image → invariant image →
      Option.Rel related (step state event) (other image event))
    (preserved : ∀ {image event next}, invariant image → guard image event →
      other image event = some next → invariant next)
    {image : Other} {events : List Event} (start_related : related start image)
    (initially : invariant image) (meets : Meets other guard image events) :
    Option.Rel related (run step start events) (run other image events) := by
  induction events generalizing start image with
  | nil => exact .some start_related
  | cons event events ih =>
      obtain ⟨guarded, later⟩ := meets
      have first : Option.Rel related (step start event) (other image event) :=
        steps start_related initially
      rw [run_cons, run_cons]
      cases taken : other image event with
      | none =>
          rw [taken] at first
          cases stepped : step start event with
          | none => exact .none
          | some next =>
              rw [stepped] at first
              cases first
      | some imageNext =>
          rw [taken] at first later
          cases stepped : step start event with
          | none =>
              rw [stepped] at first
              cases first
          | some next =>
              rw [stepped] at first
              cases first with
              | some next_related =>
                  exact ih next_related (preserved initially guarded taken) later

/-- A guarded run splits at any point: both parts are guarded. -/
theorem Meets.append {guard : State → Event → Prop} {first second : List Event}
    (meets : Meets step guard start (first ++ second))
    (reaches : run step start first = some state) :
    Meets step guard start first ∧ Meets step guard state second := by
  induction first generalizing start with
  | nil =>
      obtain rfl : start = state := by simpa using reaches
      exact ⟨trivial, meets⟩
  | cons event events ih =>
      rw [run_cons] at reaches
      cases taken : step start event with
      | none => simp [taken] at reaches
      | some next =>
          simp only [List.cons_append, Meets, taken] at meets
          have rest := ih meets.2 (by simpa [taken] using reaches)
          exact ⟨by simpa [Meets, taken] using ⟨meets.1, rest.1⟩, rest.2⟩

/-- An invariant that every guarded step preserves holds wherever a guarded run ends. -/
theorem invariant_of_guarded_run {guard : State → Event → Prop} (invariant : State → Prop)
    (preserved : ∀ {state event next}, invariant state → guard state event →
      step state event = some next → invariant next)
    {events : List Event} (initially : invariant start)
    (meets : Meets step guard start events) (reaches : run step start events = some state) :
    invariant state := by
  induction events generalizing start with
  | nil =>
      obtain rfl : start = state := by simpa using reaches
      exact initially
  | cons event events ih =>
      rw [run_cons] at reaches
      cases taken : step start event with
      | none => simp [taken] at reaches
      | some next =>
          simp only [Meets, taken] at meets
          exact ih (preserved initially meets.1 taken) meets.2 (by simpa [taken] using reaches)

/-- An invariant that every guarded step preserves holds throughout a guarded run. -/
theorem throughout_of_guarded_run {guard : State → Event → Prop} {invariant : State → Prop}
    (preserved : ∀ {state event next}, invariant state → guard state event →
      step state event = some next → invariant next)
    {events : List Event} (initially : invariant start)
    (meets : Meets step guard start events) : Throughout step invariant start events := by
  induction events generalizing start with
  | nil => exact initially
  | cons event events ih =>
      refine ⟨initially, ?_⟩
      cases taken : step start event with
      | none => trivial
      | some next =>
          simp only [Meets, taken] at meets
          exact ih (preserved initially meets.1 taken) meets.2

/-- Along a guarded run every step also satisfies what the guard and the invariant imply. -/
theorem meets_of_guarded_run {guard goal : State → Event → Prop} {invariant : State → Prop}
    (preserved : ∀ {state event next}, invariant state → guard state event →
      step state event = some next → invariant next)
    (implied : ∀ {state event}, invariant state → guard state event → goal state event)
    {events : List Event} (initially : invariant start)
    (meets : Meets step guard start events) : Meets step goal start events := by
  induction events generalizing start with
  | nil => trivial
  | cons event events ih =>
      refine ⟨implied initially meets.1, ?_⟩
      cases taken : step start event with
      | none => trivial
      | some next =>
          simp only [Meets, taken] at meets
          exact ih (preserved initially meets.1 taken) meets.2

/-- Two guards that agree under an invariant of every step are met by the same runs. -/
theorem meets_congr {guard goal : State → Event → Prop} (invariant : State → Prop)
    (preserved : ∀ {state event next}, invariant state → step state event = some next →
      invariant next)
    (agree : ∀ {state event}, invariant state → (guard state event ↔ goal state event))
    {events : List Event} (initially : invariant start) :
    Meets step guard start events ↔ Meets step goal start events := by
  constructor
  · exact meets_of_guarded_run (fun holds _ taken => preserved holds taken)
      (fun holds => (agree holds).mp) initially
  · exact meets_of_guarded_run (fun holds _ taken => preserved holds taken)
      (fun holds => (agree holds).mpr) initially

/-- If the guarded steps are the enabled ones, then the guarded runs are those that come to an end. -/
theorem exists_run_iff_meets {guard : State → Event → Prop} (invariant : State → Prop)
    (preserved : ∀ {state event next}, invariant state → step state event = some next →
      invariant next)
    (enabled : ∀ {state event}, invariant state →
      ((∃ next, step state event = some next) ↔ guard state event))
    {events : List Event} (initially : invariant start) :
    (∃ final, run step start events = some final) ↔ Meets step guard start events := by
  induction events generalizing start with
  | nil => exact ⟨fun _ => trivial, fun _ => ⟨start, rfl⟩⟩
  | cons event events ih =>
      rw [run_cons]
      cases taken : step start event with
      | none =>
          have unguarded : ¬ guard start event := by
            rw [← enabled initially, taken]
            simp
          simp [Meets, unguarded]
      | some next =>
          have guarded : guard start event := (enabled initially).mp ⟨next, taken⟩
          simpa [Meets, taken, guarded] using ih (preserved initially taken)

/-- A run whose steps are all enabled comes to an end. -/
theorem exists_run_of_meets {guard : State → Event → Prop}
    (enabled : ∀ {state event}, guard state event → ∃ next, step state event = some next)
    {events : List Event} (meets : Meets step guard start events) :
    ∃ final, run step start events = some final := by
  induction events generalizing start with
  | nil => exact ⟨start, rfl⟩
  | cons event events ih =>
      obtain ⟨next, taken⟩ := enabled meets.1
      have rest := meets.2
      rw [taken] at rest
      rw [run_cons, taken]
      exact ih rest

/-- A guard that only looks at the event is met by a run if it holds of all its events. -/
theorem meets_of_forall {guard : Event → Prop} {events : List Event}
    (all : ∀ event ∈ events, guard event) : Meets step (fun _ => guard) start events := by
  induction events generalizing start with
  | nil => trivial
  | cons event events ih =>
      refine ⟨all event List.mem_cons_self, ?_⟩
      cases step start event with
      | none => trivial
      | some next => exact ih fun event member => all event (List.mem_cons_of_mem _ member)

/-- What holds of every state holds of its weaker consequences. -/
theorem Throughout.imp {strong weak : State → Prop} (weakens : ∀ state, strong state → weak state)
    {events : List Event} (strongly : Throughout step strong start events) :
    Throughout step weak start events := by
  induction events generalizing start with
  | nil => exact weakens _ strongly
  | cons event events ih =>
      refine ⟨weakens _ strongly.1, ?_⟩
      have rest := strongly.2
      cases taken : step start event with
      | none => trivial
      | some next =>
          simp only [taken] at rest
          exact ih rest

/-- Steps taken from states with a property have the guards that the property implies. -/
theorem Throughout.meets {guard : State → Event → Prop} {property : State → Prop}
    (guards : ∀ state event, property state → guard state event)
    {events : List Event} (throughout : Throughout step property start events) :
    Meets step guard start events := by
  induction events generalizing start with
  | nil => trivial
  | cons event events ih =>
      refine ⟨guards _ _ throughout.1, ?_⟩
      have rest := throughout.2
      cases taken : step start event with
      | none => trivial
      | some next =>
          simp only [taken] at rest
          exact ih rest

/-- If only a guarded step leads from the property to the property, a run that has the property
    throughout is guarded. -/
theorem Throughout.meets_of_run {guard : State → Event → Prop} {property : State → Prop}
    (needed : ∀ {state event next}, step state event = some next → property state →
      property next → guard state event)
    {events : List Event} (throughout : Throughout step property start events)
    (reaches : run step start events = some state) : Meets step guard start events := by
  induction events generalizing start with
  | nil => trivial
  | cons event events ih =>
      rw [run_cons] at reaches
      cases taken : step start event with
      | none => simp [taken] at reaches
      | some next =>
          have rest := throughout.2
          simp only [taken] at rest
          have nextHas : property next := by
            cases events with
            | nil => exact rest
            | cons _ _ => exact rest.1
          refine ⟨needed taken throughout.1 nextHas, ?_⟩
          simpa [taken] using ih rest (by simpa [taken] using reaches)

/-- If every step keeps `invariant`, and from a state with `property` exactly the guarded steps lead
    to `property`, then the guarded runs are exactly those that have it throughout.  `side` is a
    condition on all the runs compared. -/
theorem throughout_iff_meets {side guard : State → Event → Prop} (invariant : State → Prop)
    {property : State → Prop}
    (kept : ∀ {state event next}, invariant state → step state event = some next →
      invariant next)
    (exactly : ∀ {state event next}, invariant state → side state event →
      step state event = some next → property state → (property next ↔ guard state event))
    {events : List Event} (initially : invariant start) (holds : property start)
    (sides : Meets step side start events) (reaches : run step start events = some state) :
    Throughout step property start events ↔ Meets step guard start events := by
  induction events generalizing start with
  | nil => exact ⟨fun _ => trivial, fun _ => holds⟩
  | cons event events ih =>
      rw [run_cons] at reaches
      cases taken : step start event with
      | none => simp [taken] at reaches
      | some next =>
          simp only [Meets, Throughout, taken] at sides ⊢
          have onestep := exactly initially sides.1 taken holds
          rw [taken, Option.bind_some] at reaches
          constructor
          · rintro ⟨_, rest⟩
            have nextHolds : property next := by
              cases events with
              | nil => exact rest
              | cons _ _ => exact rest.1
            exact ⟨onestep.mp nextHolds,
              (ih (kept initially taken) nextHolds sides.2 reaches).mp rest⟩
          · rintro ⟨guarded, rest⟩
            exact ⟨holds, (ih (kept initially taken) (onestep.mpr guarded) sides.2 reaches).mpr rest⟩

/-- The unguarded principle: an invariant that every step preserves holds in every state reached. -/
theorem invariant_of_run (invariant : State → Prop)
    (preserved : ∀ {state event next}, invariant state → step state event = some next →
      invariant next)
    {events : List Event} (initially : invariant start)
    (reaches : run step start events = some state) : invariant state := by
  have unguarded : Meets step (fun _ _ => True) start events :=
    meets_of_forall fun _ _ => trivial
  exact invariant_of_guarded_run invariant (fun holds _ taken => preserved holds taken) initially
    unguarded reaches

/-- `invariant_of_run` for reachable states. -/
theorem Reachable.invariant {invariant : State → Prop}
    (reachable : Reachable step start state) (initially : invariant start)
    (preserved : ∀ {state event next}, invariant state → step state event = some next →
      invariant next) : invariant state := by
  obtain ⟨events, reaches⟩ := reachable
  exact invariant_of_run invariant preserved initially reaches

/-- Reachability is closed under taking one more step. -/
theorem Reachable.tail {event : Event} (reachable : Reachable step start state)
    (taken : step state event = some next) : Reachable step start next := by
  obtain ⟨events, reaches⟩ := reachable
  exact ⟨events ++ [event], by simp [run_append, reaches, run_cons, taken]⟩

end Transition
