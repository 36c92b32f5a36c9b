/-
Module: OsSimulator.Kernel.ThreadArguments
Purpose: How a sleep thread gets its `t_thread_args`.  `block_process` hands it the address of its own
  local variable `args` and returns; the thread reads what is at that address when it begins to run,
  and until then any function that is called may have written there.
Main exports: ThreadArgs, HasSystem, Framed, Framed.start, FramedEvent, Framed.step,
  Framed.ReadsOwnArguments, Framed.During
-/
import OsSimulator.Cpu.System
import OsSimulator.Lib.Transition

namespace OsSimulator

/-- `t_thread_args`. -/
structure ThreadArgs where
  process : Pcb
  sleepTime : Int32
deriving DecidableEq, Repr

/-- What `block_process` stored for the thread. -/
def SleepThread.args (thread : SleepThread) : ThreadArgs where
  process := thread.process
  sleepTime := thread.sleepTime

/-- The thread with what it has read. -/
def SleepThread.withArgs (thread : SleepThread) (args : ThreadArgs) : SleepThread :=
  { thread with process := args.process, sleepTime := args.sleepTime }

/-- A state with the kernel in it, and the events that are the kernel's. -/
class HasSystem (State : Type) (Event : outParam Type) where
  system : State → System
  withSystem : State → System → State
  kernelEvent : Event → Option OsSimulator.Event
  withSystem_system : ∀ state, withSystem state (system state) = state

instance : HasSystem System Event where
  system := id
  withSystem _ system := system
  kernelEvent := some
  withSystem_system _ := rfl

instance : HasSystem CpuSystem CpuSystemEvent where
  system := CpuSystem.system
  withSystem state system := { state with system := system }
  kernelEvent
    | .kernel event => some event
    | .dispatchThread _ | .interruptThread _ => none
  withSystem_system _ := rfl

/-- A state together with what is at the address of `args`, which is the same whenever the dispatch thread
    calls `block_process`, and with the sleep threads that have read their arguments.  Until a thread has
    done so, its entry in the state is what `block_process` stored for it.  `none` is no `t_thread_args`:
    a thread that reads it does not get any further. -/
structure Framed (State : Type) where
  inner : State
  args : Option ThreadArgs
  hasRead : List Bool

/-- Nothing has been stored yet. -/
def Framed.start {State : Type} (inner : State) : Framed State where
  inner := inner
  args := none
  hasRead := []

/-- What can happen: a step as before, the first statements of a sleep thread, and a call that uses the
    place where the frame of `block_process` was. -/
inductive FramedEvent (Event : Type) where
  | inner (event : Event)
  | readArguments (index : Nat)
  | reuseFrame (contents : Option ThreadArgs)
deriving DecidableEq, Repr

namespace Framed

variable {State Event : Type} [HasSystem State Event]

/-- The sleep threads of the kernel. -/
def sleepThreads (state : State) : List SleepThread :=
  (HasSystem.system state).kernel.sleepThreads

/-- The sleep thread whose step the event is. -/
def ofThread (State : Type) [HasSystem State Event] (event : Event) : Option Nat :=
  match HasSystem.kernelEvent State event with
  | some (.sleepThread index) => some index
  | _ => none

/-- A sleep thread goes on only after it has read its arguments. -/
def HasArguments (framed : Framed State) (event : Event) : Prop :=
  ∀ index ∈ ofThread State event, framed.hasRead[index]? = some true

instance (framed : Framed State) (event : Event) : Decidable (framed.HasArguments event) :=
  inferInstanceAs (Decidable (∀ index ∈ ofThread State event, framed.hasRead[index]? = some true))

/-- After a step as before: a thread that ends is forgotten; if `block_process` was called, then `args` is
    what it stored, and there is one more thread that has not read it. -/
def after (framed : Framed State) (event : Event) (next : State) : Framed State :=
  match ofThread State event with
  | some index =>
      { framed with
        inner := next
        hasRead :=
          if (sleepThreads next).length < (sleepThreads framed.inner).length then
            framed.hasRead.eraseIdx index
          else
            framed.hasRead }
  | none =>
      match (sleepThreads next).drop (sleepThreads framed.inner).length with
      | [] => { framed with inner := next }
      | created :: _ =>
          { inner := next
            args := some created.args
            hasRead := framed.hasRead ++ [false] }

/-- The first statements of a sleep thread: it takes what is at the address it was given. -/
def readArguments (index : Nat) (framed : Framed State) : Option (Framed State) :=
  match (sleepThreads framed.inner)[index]?, framed.hasRead[index]?, framed.args with
  | some thread, some false, some args =>
      let system := HasSystem.system framed.inner
      let threads := system.kernel.sleepThreads.set index (thread.withArgs args)
      some
        { framed with
          inner := HasSystem.withSystem framed.inner
            { system with kernel := { system.kernel with sleepThreads := threads } }
          hasRead := framed.hasRead.set index true }
  | _, _, _ => none

/-- One step; `none` where it is not enabled. -/
def step (step : State → Event → Option State) (framed : Framed State) :
    FramedEvent Event → Option (Framed State)
  | .inner event =>
      if framed.HasArguments event then
        (step framed.inner event).map (framed.after event)
      else
        none
  | .readArguments index => framed.readArguments index
  | .reuseFrame contents => some { framed with args := contents }

/-- A thread that reads its arguments finds what `block_process` stored for it. -/
def ReadsOwnArguments (framed : Framed State) : FramedEvent Event → Prop
  | .readArguments index =>
      ∀ thread ∈ (sleepThreads framed.inner)[index]?, framed.args = some thread.args
  | _ => True

/-- What is said of the steps of the inner system. -/
def During (guard : State → Event → Prop) (framed : Framed State) : FramedEvent Event → Prop
  | .inner event => guard framed.inner event
  | _ => True

instance (framed : Framed State) : ∀ event : FramedEvent Event,
    Decidable (framed.ReadsOwnArguments event)
  | .readArguments index =>
      inferInstanceAs (Decidable (∀ thread ∈ (sleepThreads framed.inner)[index]?,
        framed.args = some thread.args))
  | .inner _ | .reuseFrame _ => isTrue trivial

instance (guard : State → Event → Prop) [∀ state event, Decidable (guard state event)]
    (framed : Framed State) : ∀ event : FramedEvent Event, Decidable (framed.During guard event)
  | .inner event => inferInstanceAs (Decidable (guard framed.inner event))
  | .readArguments _ | .reuseFrame _ => isTrue trivial

/-! ### Threads that read in time -/

variable {step : State → Event → Option State} {framed next : Framed State}

/-- Reading its own arguments changes nothing in the entry of a thread. -/
theorem inner_readArguments {index : Nat} (read : framed.readArguments index = some next)
    (own : ∀ thread ∈ (sleepThreads framed.inner)[index]?, framed.args = some thread.args) :
    next.inner = framed.inner := by
  unfold readArguments at read
  split at read
  · rename_i thread args at_index _ stored
    obtain rfl := Option.some.inj read
    have same : args = thread.args := Option.some.inj (stored.symm.trans (own thread at_index))
    have kept : (HasSystem.system framed.inner).kernel.sleepThreads.set index
        (thread.withArgs args) = (HasSystem.system framed.inner).kernel.sleepThreads := by
      obtain ⟨inside, here⟩ := List.getElem?_eq_some_iff.mp at_index
      subst same
      refine (congrArg _ ?_).trans (List.set_getElem_self inside)
      exact here.symm
    dsimp only
    rw [kept]
    exact HasSystem.withSystem_system framed.inner
  · cases read

/-- Where a thread reads only its own arguments, a step is one of the inner system, or leaves it as it
    was. -/
theorem step_cases {event : FramedEvent Event} (own : framed.ReadsOwnArguments event)
    (taken : framed.step step event = some next) :
    (∃ inner, event = .inner inner ∧ step framed.inner inner = some next.inner) ∨
      next.inner = framed.inner := by
  cases event with
  | inner event =>
      obtain ⟨_, taken⟩ := Option.ite_none_right_eq_some.mp taken
      obtain ⟨inner, stepped, rfl⟩ := Option.map_eq_some_iff.mp taken
      refine .inl ⟨event, rfl, stepped.trans (congrArg some ?_)⟩
      unfold after
      split
      · rfl
      · split <;> rfl
  | readArguments index => exact .inr (inner_readArguments taken own)
  | reuseFrame contents =>
      obtain rfl := Option.some.inj taken
      exact .inr rfl

/-- What the steps of the inner system keep, the steps with the frame keep. -/
theorem invariant_step {guard : State → Event → Prop} {invariant : State → Prop}
    (preserved : ∀ {state event after}, invariant state → guard state event →
      step state event = some after → invariant after)
    {event : FramedEvent Event} (holds : invariant framed.inner)
    (guarded : framed.ReadsOwnArguments event ∧ framed.During guard event)
    (taken : framed.step step event = some next) : invariant next.inner := by
  rcases step_cases guarded.1 taken with ⟨inner, rfl, stepped⟩ | same
  · exact preserved holds guarded.2 stepped
  · rw [same]
    exact holds

end Framed

end OsSimulator
