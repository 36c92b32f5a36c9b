/-
Module: OsSimulator.Concurrent.FramedWorld
Purpose: The world, and how a sleep thread gets its `t_thread_args`.  `block_process` hands it the
  address of its own local variable `args` and returns; the thread reads what is at that address when
  it begins to run, and until then any function that is called may have written there.
Main exports: FramedWorld, FramedWorld.init, FramedWorldEvent, FramedWorld.step, FramedWorld.ReadsOnly,
  FramedWorld.step_cases, FramedWorld.invariant_step
-/
import OsSimulator.Concurrent.World

namespace OsSimulator

open Threads

/-- A world together with what is at the address of `args`, which is the same whenever the dispatch
    handler calls `block_process`.  `none` is no `t_thread_args`: a thread that reads it does not get any
    further. -/
structure FramedWorld where
  world : World
  args : Option (PcbPointer × Int32)

/-- Nothing has been stored yet. -/
def FramedWorld.init (config : KernelConfig) : FramedWorld where
  world := World.init config
  args := none

/-- What can happen: a step of the world, a created thread begins to run, and a call that uses the place
    where the frame of `block_process` was. -/
inductive FramedWorldEvent where
  | world (event : WorldEvent)
  | readArguments (index : Nat)
  | reuseFrame (contents : Option (PcbPointer × Int32))
deriving DecidableEq, Repr

/-- The world with other created threads. -/
def World.withCreatedThreads (created : List (PcbPointer × Int32)) (world : World) : World :=
  { world with
    pool := { world.pool with state := { world.memory with createdThreads := created } } }

namespace FramedWorld

/-- What `block_process` stores at the address, if the step is its `pthread_create`. -/
def stored (framed : FramedWorld) : WorldEvent → Option (PcbPointer × Int32)
  | .advance index =>
      match framed.world.pool.nextOp index with
      | some (.createThread process sleepTime) => some (process, sleepTime)
      | _ => none
  | _ => none

/-- The first statements of a sleep thread: it takes what is at the address it was given, and begins to
    run with that. -/
def readArguments (index : Nat) (framed : FramedWorld) : Option FramedWorld :=
  match framed.world.memory.createdThreads[index]?, framed.args with
  | some _, some (process, sleepTime) =>
      let created := framed.world.memory.createdThreads.eraseIdx index
      some
        { framed with
          world := { framed.world with
            pool := Pool.spawn (.sleeper process sleepTime) (Code.threadSleepProcess process)
              { framed.world.pool with
                state := { framed.world.memory with createdThreads := created } } } }
  | _, _ => none

/-- One step; `none` where it is not enabled.  A created thread does not begin otherwise than by reading
    its arguments. -/
def step (config : KernelConfig) (framed : FramedWorld) : FramedWorldEvent → Option FramedWorld
  | .world event =>
      if event = .startSleeper then
        none
      else
        (framed.world.step config event).map fun next =>
          { world := next, args := (framed.stored event).or framed.args }
  | .readArguments index => framed.readArguments index
  | .reuseFrame contents => some { framed with args := contents }

/-- A thread that reads its arguments finds a pointer to one of the processes. -/
def ReadsOnly (pids : UInt32 → Prop) (framed : FramedWorld) : FramedWorldEvent → Prop
  | .readArguments _ => ∀ args ∈ framed.args,
      args.1 < framed.world.memory.pcbs.length ∧ pids (framed.world.memory.pcb args.1).pid
  | _ => True

/-- What is said of the steps of the world. -/
def During (guard : World → WorldEvent → Prop) (framed : FramedWorld) : FramedWorldEvent → Prop
  | .world event => guard framed.world event
  | _ => True

instance (pids : UInt32 → Prop) [DecidablePred pids] (framed : FramedWorld) :
    ∀ event, Decidable (framed.ReadsOnly pids event)
  | .readArguments _ =>
      inferInstanceAs (Decidable (∀ args ∈ framed.args,
        args.1 < framed.world.memory.pcbs.length ∧ pids (framed.world.memory.pcb args.1).pid))
  | .world _ | .reuseFrame _ => isTrue trivial

instance (guard : World → WorldEvent → Prop) [∀ world event, Decidable (guard world event)]
    (framed : FramedWorld) : ∀ event, Decidable (framed.During guard event)
  | .world event => inferInstanceAs (Decidable (guard framed.world event))
  | .readArguments _ | .reuseFrame _ => isTrue trivial

variable {config : KernelConfig} {framed next : FramedWorld} {event : FramedWorldEvent}

theorem step_world {inner : WorldEvent} (stepped : framed.step config (.world inner) = some next) :
    framed.world.step config inner = some next.world := by
  unfold step at stepped
  obtain ⟨_, result⟩ := Option.ite_none_left_eq_some.mp stepped
  obtain ⟨world, taken, rfl⟩ := Option.map_eq_some_iff.mp result
  exact taken

/-- The inversion lemma of the steps.  A thread that reads other arguments begins as if these had been
    stored for it. -/
theorem step_cases (stepped : framed.step config event = some next) :
    (∃ inner, event = .world inner ∧ framed.world.step config inner = some next.world) ∨
      (∃ index args, event = .readArguments index ∧ framed.args = some args ∧
        (framed.world.withCreatedThreads
            (args :: framed.world.memory.createdThreads.eraseIdx index)).step config .startSleeper =
          some next.world) ∨
      ∃ contents, event = .reuseFrame contents ∧ next.world = framed.world := by
  cases event with
  | world inner => exact .inl ⟨inner, rfl, step_world stepped⟩
  | readArguments index =>
      simp only [step, readArguments] at stepped
      split at stepped
      · rename_i stored
        obtain rfl := Option.some.inj stepped
        exact .inr (.inl ⟨index, _, rfl, stored, rfl⟩)
      · cases stepped
  | reuseFrame contents =>
      obtain rfl := Option.some.inj stepped
      exact .inr (.inr ⟨contents, rfl, rfl⟩)

/-- What the steps of the world keep, whatever the created threads are given, the steps with the frame
    keep. -/
theorem invariant_step {guard : World → WorldEvent → Prop} {invariant : World → Prop}
    (preserved : ∀ {world event next}, invariant world → guard world event →
      world.step config event = some next → invariant next)
    (starts : ∀ world, guard world .startSleeper)
    (blind : ∀ {world} created, invariant world → invariant (world.withCreatedThreads created))
    (holds : invariant framed.world) (guarded : framed.During guard event)
    (stepped : framed.step config event = some next) : invariant next.world := by
  rcases step_cases stepped with
    ⟨inner, rfl, taken⟩ | ⟨index, args, rfl, _, taken⟩ | ⟨contents, rfl, same⟩
  · exact preserved holds guarded taken
  · exact preserved (blind _ holds) (starts _) taken
  · rw [same]
    exact holds

/-- The oldest of the created threads, if it reads what `block_process` stored for it, begins as in the
    world without the frame. -/
theorem readArguments_own (own : framed.args = framed.world.memory.createdThreads.head?) :
    (framed.step config (.readArguments 0)).map FramedWorld.world =
      framed.world.step config .startSleeper := by
  simp only [step, readArguments, World.step, World.startSleeper]
  cases created : framed.world.memory.createdThreads with
  | nil => rfl
  | cons thread rest =>
      rw [created] at own
      rw [own]
      rfl

/-- Steps of the world without the frame. -/
def steps (events : List WorldEvent) : List FramedWorldEvent := events.map .world

end FramedWorld

end OsSimulator
