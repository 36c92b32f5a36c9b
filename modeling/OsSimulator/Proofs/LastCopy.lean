/-
Module: OsSimulator.Proofs.LastCopy
Purpose: When a console's `FINISH_PROCESS` is final, whatever the threads of the kernel are
  interleaved with.  `finish_process` takes one PCB out of one queue; the process stays away for ever if
  that was the only copy that could bring it back, and no thread had it in hand.
Main exports: EmptyHanded, World.OnlyCopy, World.LeavesAlone, FramedWorld.Guards, run_finish_is_final,
  run_finished_process_returns
-/
import OsSimulator.Concurrent.FramedWorld
import OsSimulator.Proofs.Provenance
import OsSimulator.Proofs.QueueTokens

namespace OsSimulator

open Threads Transition

namespace Operation

/-- The operation takes a process out of a queue, wherever it stands there. -/
def Removes : Operation → Prop
  | .remove .. => True
  | _ => False

/-- The operation puts a PCB of the process into a queue, or sends it to the CPU. -/
def BringsBack (pid : UInt32) (memory : Memory) : Operation → Prop
  | .push _ process | .sendToCpu _ process => (memory.pcb process).pid = pid
  | _ => False

end Operation

/-- What is in a blocked queue is in one of the list. -/
theorem Memory.mem_blocked {memory : Memory} {index : Nat} {process : PcbPointer}
    (member : process ∈ memory.queue (.blocked index)) :
    ∃ queue ∈ memory.listOfQueueBlocked, process ∈ queue := by
  by_cases inside : index < memory.listOfQueueBlocked.length
  · refine ⟨memory.listOfQueueBlocked[index], List.getElem_mem inside, ?_⟩
    simpa [Memory.queue, List.getD_eq_getElem?_getD, inside] using member
  · simp [Memory.queue, List.getD_eq_getElem?_getD, not_lt.mp inside] at member

/-- The thread has no copy of the process in hand: whatever the others do with other processes, it puts
    the process into no queue, does not send it to the CPU, does not let it sleep and changes none of its
    resources. -/
def EmptyHanded (config : KernelConfig) (pid : UInt32) (memory : Memory)
    (thread : Thread Role Operation Memory) : Prop :=
  thread.rest.Relies (kernelRely config (· ≠ pid)) (fun _ _ => True) memory

/-- A thread that has nothing to do has nothing in hand. -/
theorem EmptyHanded.of_idle {config : KernelConfig} {pid : UInt32} {memory : Memory}
    {thread : Thread Role Operation Memory} (idle : thread.Idle) :
    EmptyHanded config pid memory thread := by
  unfold EmptyHanded
  cases rest : thread.rest with
  | done result => trivial
  | step op next => simp [Thread.Idle, Thread.nextOp, rest, Program.nextOp] at idle

/-- Nor has a thread that is about to begin, if it has nothing to do with the process. -/
theorem EmptyHanded.start {config : KernelConfig} {pid : UInt32} {memory : Memory} {role : Role}
    (keeps : role.KeepsTo config (· ≠ pid) memory) :
    EmptyHanded config pid memory (.start role (role.code config)) :=
  Role.keepsTo_code keeps

namespace World

/-- No copy of the process is left that could bring it back, but the one which the thread at `index`
    takes out of its queue now: it is in no other queue, no created thread or package to the CPU has it,
    what the CPU has said about it only makes the kernel look for it, no other thread has it in hand, and
    its pid is not the next one to be assigned. -/
structure OnlyCopy (config : KernelConfig) (pid : UInt32) (index : Nat) (world : World) : Prop where
  queues : ∀ id, ∀ process ∈ world.memory.queue id, (world.memory.pcb process).pid = pid →
    world.pool.nextOp index = some (.remove id process) ∧ (world.memory.queue id).count process = 1
  createdThreads : ∀ created ∈ world.memory.createdThreads, (world.memory.pcb created.1).pid ≠ pid
  cpuDispatchConnection : ∀ sent ∈ world.memory.cpuDispatchConnection, sent.2.pid ≠ pid
  messages : ∀ message ∈ world.cpuMessages, message.pcb.pid = pid →
    message.request.OnlyFinishes config message.pcb
  threads : ∀ other, ∀ thread ∈ world.pool.threads[other]?,
    EmptyHanded config pid world.memory thread ∨
      other = index ∧ ∃ op ∈ thread.nextOp, op.Removes
  idToAssign : world.memory.idToAssign ≠ pid

/-- The step neither puts the process into a queue nor sends it to the CPU. -/
def LeavesAlone (pid : UInt32) (world : World) : WorldEvent → Prop
  | .advance index => ∀ op ∈ world.pool.nextOp index, ¬ op.BringsBack pid world.memory
  | _ => True

/-- No queue has the process. -/
def Away (pid : UInt32) (world : World) : Prop :=
  ∀ id, ∀ process ∈ world.memory.queue id, (world.memory.pcb process).pid ≠ pid

end World

/-! ### After a process was taken out of its queue -/

namespace Code

variable {config : KernelConfig} {pids : UInt32 → Prop} {α β : Type}

/-- Whenever the code has taken a process out of a queue, it keeps to the processes from then on,
    whatever the memory is by then. -/
abbrev KeepsAfterRemove {α : Type} (config : KernelConfig) (pids : UInt32 → Prop) (code : Code α) :
    Prop :=
  code.After Operation.Removes fun rest =>
    ∀ memory, Code.KeepsTo config pids memory (fun _ _ => True) rest

theorem KeepsAfterRemove.bind {code : Code α} {after : α → Code β}
    (first : code.KeepsAfterRemove config pids)
    (keeps : ∀ result memory, (after result).KeepsTo config pids memory fun _ _ => True)
    (second : ∀ result, (after result).KeepsAfterRemove config pids) :
    (code >>= after).KeepsAfterRemove config pids := by
  refine Program.After.bind (fun rest good memory => ?_) first second
  exact Program.Relies.bind (good memory) fun _ result _ _ => keeps result _

theorem keepsAfterRemove_removeLocked (id : QueueId) (process : PcbPointer) :
    (removeLocked id process).KeepsAfterRemove config pids := by
  refine Program.Every.after_bind (by simp [semWait, Operation.Removes]) fun _ _ => ⟨?_, ?_⟩
  · exact fun _ memory => (handlesNone_semPost _).keepsTo
  · exact fun _ => ⟨fun removes => removes.elim, trivial⟩

theorem keepsAfterRemove_moveProcessFromBlockToReady (process : PcbPointer) (index : Nat) :
    (moveProcessFromBlockToReady process index).KeepsAfterRemove config pids := by
  refine Program.Every.after_bind (by simp [Operation.Removes]) fun _ => ?_
  refine Program.Every.after_bind (by simp [pushLocked, semWait, semPost, Operation.Removes]) fun _ => ?_
  refine (keepsAfterRemove_removeLocked _ process).bind ?_ ?_
  · exact fun _ memory => HandlesNone.keepsTo (by simp)
  · exact fun _ => Program.Every.after (by simp [semWait, semPost, Operation.Removes])

/-- By induction on the turns that are left. -/
theorem keepsAfterRemove_wakeLoop (index : Nat) (available : Int) (turns position : Nat) :
    (wakeLoop index available turns position).KeepsAfterRemove config pids := by
  induction turns generalizing position with
  | zero => trivial
  | succ turns ih =>
      refine Program.Every.after_bind (by simp [look, Operation.Removes]) fun size => ?_
      split
      · refine Program.Every.after_bind (by simp [semWait, Operation.Removes]) fun _ => ?_
        refine Program.Every.after_bind (by simp [look, Operation.Removes]) fun element => ?_
        refine Program.Every.after_bind (by simp [semPost, Operation.Removes]) fun _ => ?_
        refine Program.Every.after_bind ?_ fun process => ?_
        · cases element <;> simp [dereference, Operation.Removes]
        · exact (keepsAfterRemove_moveProcessFromBlockToReady process index).bind
            (fun _ memory => keepsTo_wakeLoop index available _ _) fun _ => ih (position + 1)
      · trivial

theorem keepsAfterRemove_wakeQueue (index : Nat) :
    (wakeQueue index).KeepsAfterRemove config pids := by
  refine Program.Every.after_bind (by simp [look, Operation.Removes]) fun size => ?_
  split
  · refine Program.Every.after_bind (by simp [look, Operation.Removes]) fun available => ?_
    split
    · exact keepsAfterRemove_wakeLoop index available _ _
    · trivial
  · trivial

theorem keepsAfterRemove_wakeQueues (indices : List Nat) :
    (wakeQueues indices).KeepsAfterRemove config pids := by
  induction indices with
  | nil => trivial
  | cons index indices ih =>
      exact (keepsAfterRemove_wakeQueue index).bind (fun _ memory => keepsTo_wakeQueues indices)
        fun _ => ih

theorem neverRemoves_searchQueues (pid : UInt32) (ids : List QueueId) :
    (searchQueues pid ids).Every fun op => ¬ op.Removes :=
  every_searchQueues _ (fun _ => by simp [semWait, Operation.Removes])
    (fun _ => by simp [semPost, Operation.Removes]) (fun _ _ => by simp [Operation.Removes]) pid ids

theorem neverRemoves_freeResourcesRetained (process : PcbPointer) :
    (freeResourcesRetained process).Every fun op => ¬ op.Removes :=
  every_freeResourcesRetained _ (by simp [Operation.Removes]) (fun _ => by simp [Operation.Removes])
    process

/-- What `finish_process` does after it has taken a process out of a queue: it wakes others, and says to
    memory and to the semaphores what it has done. -/
theorem keepsAfterRemove_finishProcess (pid : UInt32) :
    (finishProcess pid).KeepsAfterRemove config pids := by
  refine Program.Every.after_bind
    (by simp [buildAllQueuesInList, semWait, semPost, look, Operation.Removes]) fun queues => ?_
  refine (neverRemoves_searchQueues pid queues).after_bind fun found => ?_
  cases found with
  | none => trivial
  | some place =>
      obtain ⟨id, process⟩ := place
      refine Program.Every.after_bind (by simp [Operation.Removes]) fun previousState => ?_
      refine Program.Every.after_bind (by simp [Operation.Removes]) fun _ => ?_
      refine (neverRemoves_freeResourcesRetained process).after_bind fun _ => ?_
      refine (keepsAfterRemove_removeLocked id process).bind
        (fun _ memory => keepsTo_afterRemove process previousState) fun _ => ?_
      have wakes : checkProcessInBlockedAndSendToReady.KeepsAfterRemove config pids :=
        Program.Every.after_bind (by simp [look, Operation.Removes]) fun _ =>
          keepsAfterRemove_wakeQueues _
      refine wakes.bind (fun _ memory => HandlesNone.keepsTo (by simp)) fun _ => ?_
      refine Program.Every.after_bind (by simp [sendPcbToMemory, look, Operation.Removes]) fun _ => ?_
      exact Program.Every.after (by cases previousState <;>
        simp [updateQueueSemaphores, semWait, semPost, Operation.Removes])

end Code

namespace World

variable {config : KernelConfig} {pids : UInt32 → Prop} {world next : World} {event : WorldEvent}
  {pid : UInt32} {index : Nat}

/-- Every console that carries out a `FINISH_PROCESS` keeps to the processes once it has taken one out
    of a queue. -/
def ConsolesKeepAfterRemove (config : KernelConfig) (pids : UInt32 → Prop) (pool : KernelPool) :
    Prop :=
  ∀ thread ∈ pool.threads, ∀ pid, thread.role = .console (some (.finishProcess pid)) →
    Code.KeepsAfterRemove config pids thread.rest

theorem ConsolesKeepAfterRemove.step {pool after : KernelPool}
    (consoles : ConsolesKeepAfterRemove config pids pool) (step : PoolStep config pool event after) :
    ConsolesKeepAfterRemove config pids after := by
  intro thread member pid finishing
  cases step with
  | advance advanced =>
      obtain ⟨old, op, rest, memory, at_index, program, _, rfl⟩ := Pool.advance_cases advanced
      rcases List.mem_or_eq_of_mem_set member with before | rfl
      · exact consoles thread before pid finishing
      · have keeps := consoles old (List.mem_of_getElem? at_index) pid finishing
        rw [program] at keeps
        exact (keeps pool.state).2
  | restart starts at_index idle same =>
      rcases List.mem_or_eq_of_mem_set member with before | rfl
      · exact consoles thread before pid finishing
      · obtain rfl := finishing
        exact Code.keepsAfterRemove_finishProcess pid
  | spawn starts new same =>
      rcases List.mem_append.mp member with before | created
      · exact consoles thread before pid finishing
      · rw [List.mem_singleton.mp created] at finishing
        rcases new with rfl | ⟨_, _, rfl⟩ <;> cases finishing
  | environment same => exact consoles thread member pid finishing

/-! ### Nothing is left -/

/-- The queues once the only copy was taken out. -/
theorem OnlyCopy.keepsTo_remove {id : QueueId} {process : PcbPointer}
    (only : world.OnlyCopy config pid index) (valid : world.memory.KeepsTo config fun _ => True)
    (removes : world.pool.nextOp index = some (.remove id process)) :
    (world.memory.setQueue ((world.memory.queue id).erase process) id).KeepsTo config (· ≠ pid) := by
  have queues : ∀ other, ∀ entry ∈
      (world.memory.setQueue ((world.memory.queue id).erase process) id).queue other,
      world.memory.PointsTo (· ≠ pid) entry := by
    intro other entry member
    have old : entry ∈ world.memory.queue other := by
      rw [Memory.queue_setQueue] at member
      split at member
      · rename_i here
        rw [← here.1]
        exact List.mem_of_mem_erase member
      · exact member
    refine ⟨(valid.queues other entry old).1, fun same => ?_⟩
    -- a copy that is left would be the one that was taken out, and that was there only once
    obtain ⟨removesEntry, once⟩ := only.queues other entry old same
    obtain ⟨rfl, rfl⟩ : id = other ∧ process = entry := by
      simpa using removes.symm.trans removesEntry
    have within : id.Within world.memory.listOfQueueBlocked.length := by
      by_contra outside
      rw [Memory.queue_of_not_within outside] at old
      cases old
    rw [Memory.queue_setQueue, if_pos ⟨rfl, within⟩] at member
    have none : ((world.memory.queue id).erase process).count process = 0 := by
      rw [List.count_erase_self, once]
    exact absurd member (List.count_eq_zero.mp none)
  have later : world.memory.Continues (· ≠ pid)
      (world.memory.setQueue ((world.memory.queue id).erase process) id) :=
    .of_pcbs (Memory.pcbs_setQueue id)
  have created : ∀ created ∈ world.memory.createdThreads,
      world.memory.PointsTo (· ≠ pid) created.1 := fun created member =>
    ⟨(valid.createdThreads created member).1, only.createdThreads created member⟩
  cases id <;> exact Memory.keepsTo_later later queues created only.cpuDispatchConnection
    only.idToAssign valid.allResources

/-- Where nothing is taken out, there was no copy. -/
theorem OnlyCopy.keepsTo (only : world.OnlyCopy config pid index)
    (valid : world.memory.KeepsTo config fun _ => True)
    (other : ∀ id process, world.pool.nextOp index ≠ some (.remove id process)) :
    world.KeepsTo config (· ≠ pid) := by
  refine ⟨⟨?_, fun thread member => ?_⟩, fun message member => ?_⟩
  · refine ⟨fun id process member => ?_, fun created member => ?_, only.cpuDispatchConnection,
      only.idToAssign, valid.allResources⟩
    · exact ⟨(valid.queues id process member).1, fun same =>
        other id process (only.queues id process member same).1⟩
    · exact ⟨(valid.createdThreads created member).1, only.createdThreads created member⟩
  · obtain ⟨place, at_place⟩ := List.mem_iff_getElem?.mp member
    rcases only.threads place thread at_place with empty | ⟨rfl, op, nextOp, removes⟩
    · exact empty
    · cases op with
      | remove id process =>
          refine absurd ?_ (other id process)
          rw [Pool.nextOp, at_place]
          exact nextOp
      | _ => exact removes.elim
  · by_cases mine : message.pcb.pid = pid
    · exact .inr (only.messages message member mine)
    · exact .inl mine

/-- After the step there is no copy that could bring the process back. -/
theorem OnlyCopy.step (only : world.OnlyCopy config pid index)
    (valid : world.KeepsTo config fun _ => True)
    (consoles : ConsolesKeepAfterRemove config (· ≠ pid) world.pool)
    (console : world.roleAt index = some (.console (some (.finishProcess pid))))
    (assigns : world.AssignsOnly (· ≠ pid) (.advance index))
    (stepped : world.step config (.advance index) = some next) :
    next.KeepsTo config (· ≠ pid) := by
  by_cases removes : ∃ id process, world.pool.nextOp index = some (.remove id process)
  · obtain ⟨id, process, nextOp⟩ := removes
    obtain ⟨pool, advanced, rfl⟩ := Option.map_eq_some_iff.mp stepped
    obtain ⟨thread, op, rest, after, at_index, program, performed, rfl⟩ :=
      Pool.advance_cases advanced
    obtain rfl : op = .remove id process := by
      rw [Pool.nextOp, at_index] at nextOp
      exact Option.some.inj ((Thread.nextOp_of_rest program).symm.trans nextOp)
    obtain rfl := Option.some.inj performed
    have role : thread.role = .console (some (.finishProcess pid)) := by
      rw [roleAt, at_index] at console
      exact Option.some.inj console
    have finishing := consoles thread (List.mem_of_getElem? at_index) pid role
    rw [program] at finishing
    have later : world.memory.Continues (· ≠ pid)
        (world.memory.setQueue ((world.memory.queue id).erase process) id) :=
      .of_pcbs (Memory.pcbs_setQueue id)
    refine ⟨⟨only.keepsTo_remove valid.pool.holds nextOp, fun other member => ?_⟩,
      fun message member => ?_⟩
    · obtain ⟨place, at_place⟩ := List.mem_iff_getElem?.mp member
      by_cases here : index = place
      · subst here
        obtain ⟨inside, _⟩ := List.getElem?_eq_some_iff.mp at_index
        rw [List.getElem?_set_self inside] at at_place
        obtain rfl := Option.some.inj at_place
        exact (finishing world.memory).1 trivial _
      · rw [List.getElem?_set_ne here] at at_place
        rcases only.threads place other at_place with empty | ⟨same, _⟩
        · exact Program.Relies.later (fun _ still => still) empty later
        · exact absurd same.symm here
    · by_cases mine : message.pcb.pid = pid
      · exact .inr (only.messages message member mine)
      · exact .inl mine
  · have keeps := only.keepsTo valid.pool.holds fun id process nextOp => removes ⟨id, process, nextOp⟩
    exact keeps.step assigns stepped

/-- The created threads are given others of the processes. -/
theorem KeepsTo.withCreatedThreads {created : List (PcbPointer × Int32)}
    (keeps : world.KeepsTo config pids)
    (points : ∀ entry ∈ created, world.memory.PointsTo pids entry.1) :
    (world.withCreatedThreads created).KeepsTo config pids := by
  have holds : world.memory.KeepsTo config pids := keeps.pool.holds
  have later : world.memory.Continues pids { world.memory with createdThreads := created } :=
    .of_pcbs rfl
  refine ⟨keeps.pool.environment later ?_, keeps.messages⟩
  exact Memory.keepsTo_later later holds.queues points holds.cpuDispatchConnection holds.idToAssign
    holds.allResources

theorem KeepsTo.leavesAlone (keeps : world.KeepsTo config (· ≠ pid))
    (assigns : world.AssignsOnly (· ≠ pid) event) : world.LeavesAlone pid event := by
  cases event with
  | advance other =>
      intro op nextOp bringsBack
      have allowed := keeps.nextOp assigns nextOp
      cases op with
      | push id process | sendToCpu header process => exact (allowed process rfl).2 bringsBack
      | _ => exact bringsBack
  | _ => trivial

/-- Nor does the step itself bring the process back. -/
theorem OnlyCopy.leavesAlone (only : world.OnlyCopy config pid index)
    (valid : world.memory.KeepsTo config fun _ => True)
    (assigns : world.AssignsOnly (· ≠ pid) (.advance index)) :
    world.LeavesAlone pid (.advance index) := by
  by_cases removes : ∃ id process, world.pool.nextOp index = some (.remove id process)
  · obtain ⟨id, process, nextOp⟩ := removes
    intro op member
    obtain rfl := Option.some.inj (nextOp.symm.trans member)
    exact fun bringsBack => bringsBack
  · refine (only.keepsTo valid fun id process nextOp => ?_).leavesAlone assigns
    exact removes ⟨id, process, nextOp⟩

instance [DecidablePred pids] (world : World) : ∀ event, Decidable (world.AssignsOnly pids event)
  | .advance index =>
      inferInstanceAs (Decidable (world.pool.nextOp index = some .nextId →
        pids (world.memory.idToAssign + 1)))
  | .iterate _ | .connect | .command .. | .receive _ | .startSleeper | .cpuExecute ..
  | .cpuReadInterrupt => isTrue trivial

theorem away_iff (pid : UInt32) (world : World) :
    ((∀ queue ∈ world.memory.queueNew :: world.memory.queueReady :: world.memory.queueExec ::
        world.memory.listOfQueueBlocked,
      ∀ process ∈ queue, (world.memory.pcb process).pid ≠ pid)) ↔ world.Away pid := by
  constructor
  · intro away id process member
    cases id with
    | new => exact away world.memory.queueNew (by simp) process member
    | ready => exact away world.memory.queueReady (by simp) process member
    | exec => exact away world.memory.queueExec (by simp) process member
    | blocked index =>
        obtain ⟨queue, inList, inQueue⟩ := Memory.mem_blocked member
        exact away queue (by simp [inList]) process inQueue
  · intro away queue member process inQueue
    simp only [List.mem_cons] at member
    rcases member with rfl | rfl | rfl | inList
    · exact away .new process inQueue
    · exact away .ready process inQueue
    · exact away .exec process inQueue
    · obtain ⟨index, inside, rfl⟩ := List.getElem_of_mem inList
      refine away (.blocked index) process ?_
      simpa [Memory.queue, List.getD_eq_getElem?_getD, inside] using inQueue

instance (pid : UInt32) (world : World) : Decidable (world.Away pid) :=
  decidable_of_iff _ (away_iff pid world)

end World

/-! ### Runs -/

namespace FramedWorld

variable {config : KernelConfig} {pids : UInt32 → Prop} {framed next : FramedWorld}
  {event : FramedWorldEvent}

/-- The processes are kept to as long as the sleep threads read no other arguments and no other pids are
    assigned. -/
def Guards (pids : UInt32 → Prop) (framed : FramedWorld) (event : FramedWorldEvent) : Prop :=
  framed.ReadsOnly pids event ∧ framed.During (World.AssignsOnly pids) event

instance [DecidablePred pids] (framed : FramedWorld) (event : FramedWorldEvent) :
    Decidable (framed.Guards pids event) := inferInstanceAs (Decidable (_ ∧ _))

/-- The step lemma, whatever is at the address of the sleep threads' arguments. -/
theorem keepsTo_step (keeps : framed.world.KeepsTo config pids) (guarded : framed.Guards pids event)
    (stepped : framed.step config event = some next) : next.world.KeepsTo config pids := by
  rcases step_cases stepped with
    ⟨inner, rfl, taken⟩ | ⟨index, args, rfl, stored, taken⟩ | ⟨contents, rfl, same⟩
  · exact keeps.step guarded.2 taken
  · have points : framed.world.memory.PointsTo pids args.1 := guarded.1 args stored
    have keepsGiven : (framed.world.withCreatedThreads
        (args :: framed.world.memory.createdThreads.eraseIdx index)).KeepsTo config pids := by
      refine keeps.withCreatedThreads fun created member => ?_
      rcases List.mem_cons.mp member with rfl | left
      · exact points
      · exact keeps.pool.holds.createdThreads created (List.mem_of_mem_eraseIdx left)
    refine keepsGiven.step ?_ taken
    trivial
  · rw [same]
    exact keeps

theorem leavesAlone_of_keepsTo {pid : UInt32} (keeps : framed.world.KeepsTo config (· ≠ pid))
    (guarded : framed.Guards (· ≠ pid) event) : framed.During (World.LeavesAlone pid) event := by
  cases event with
  | world inner => exact keeps.leavesAlone guarded.2
  | _ => trivial

/-- In every run whose sleep threads read pointers to PCBs, all pointers that are in use are valid. -/
theorem keepsTo_of_run {events : List FramedWorldEvent}
    (reads : Meets (FramedWorld.step config) (FramedWorld.ReadsOnly fun _ => True)
      (FramedWorld.init config) events)
    (reaches : run (FramedWorld.step config) (FramedWorld.init config) events = some framed) :
    framed.world.KeepsTo config fun _ => True := by
  refine invariant_of_guarded_run (fun framed => framed.world.KeepsTo config fun _ => True) ?_
    (World.KeepsTo.init config) reads reaches
  intro state event after keeps reads stepped
  refine keepsTo_step keeps ⟨reads, ?_⟩ stepped
  cases event with
  | world inner => cases inner <;> simp [During, World.AssignsOnly]
  | _ => trivial

theorem consolesKeepAfterRemove_step
    (consoles : World.ConsolesKeepAfterRemove config pids framed.world.pool)
    (stepped : framed.step config event = some next) :
    World.ConsolesKeepAfterRemove config pids next.world.pool := by
  rcases step_cases stepped with
    ⟨inner, rfl, taken⟩ | ⟨index, args, rfl, stored, taken⟩ | ⟨contents, rfl, same⟩
  · exact consoles.step (World.poolStep taken)
  · have blind : World.ConsolesKeepAfterRemove config pids (framed.world.withCreatedThreads
        (args :: framed.world.memory.createdThreads.eraseIdx index)).pool := consoles
    exact blind.step (World.poolStep taken)
  · rw [same]
    exact consoles

theorem consolesKeepAfterRemove_of_run {events : List FramedWorldEvent}
    (reaches : run (FramedWorld.step config) (FramedWorld.init config) events = some framed) :
    World.ConsolesKeepAfterRemove config pids framed.world.pool := by
  refine invariant_of_run
    (fun framed => World.ConsolesKeepAfterRemove config pids framed.world.pool)
    consolesKeepAfterRemove_step ?_ reaches
  intro thread member pid finishing
  simp only [FramedWorld.init, World.init, List.mem_cons, List.not_mem_nil, or_false] at member
  rcases member with rfl | rfl | rfl <;> cases finishing

end FramedWorld

/-- A process is finished for good by the console if the copy that its `finish_process` takes out of a
    queue is the only one: whatever the threads are interleaved with, in every later run in which no sleep
    thread reads it as its argument and the counter does not come round to its pid, it is in no queue, and
    no step puts it into one or sends it to the CPU. -/
theorem run_finish_is_final (config : KernelConfig) (events : List FramedWorldEvent)
    (framed final : FramedWorld) (pid : UInt32) (index : Nat) (later : List FramedWorldEvent)
    (reads : Meets (FramedWorld.step config) (FramedWorld.ReadsOnly fun _ => True)
      (FramedWorld.init config) events)
    (reaches : run (FramedWorld.step config) (FramedWorld.init config) events = some framed)
    (console : framed.world.roleAt index = some (.console (some (.finishProcess pid))))
    (only : framed.world.OnlyCopy config pid index)
    (guarded : Meets (FramedWorld.step config) (FramedWorld.Guards (· ≠ pid)) framed
      (.world (.advance index) :: later))
    (goesOn : run (FramedWorld.step config) framed (.world (.advance index) :: later) = some final) :
    final.world.Away pid ∧
      Meets (FramedWorld.step config) (FramedWorld.During (World.LeavesAlone pid)) framed
        (.world (.advance index) :: later) := by
  have valid := FramedWorld.keepsTo_of_run reads reaches
  have consoles : World.ConsolesKeepAfterRemove config (· ≠ pid) framed.world.pool :=
    FramedWorld.consolesKeepAfterRemove_of_run reaches
  rw [run_cons] at goesOn
  cases taken : framed.step config (.world (.advance index)) with
  | none => simp [taken] at goesOn
  | some next =>
      simp only [Meets, taken] at guarded ⊢
      rw [taken] at goesOn
      obtain ⟨first, guarded⟩ := guarded
      have keeps : next.world.KeepsTo config (· ≠ pid) :=
        only.step valid consoles console first.2 (FramedWorld.step_world taken)
      have finalKeeps : final.world.KeepsTo config (· ≠ pid) :=
        invariant_of_guarded_run (fun framed => framed.world.KeepsTo config (· ≠ pid))
          FramedWorld.keepsTo_step keeps guarded goesOn
      refine ⟨fun id process member => (finalKeeps.pool.holds.queues id process member).2,
        only.leavesAlone valid.pool.holds first.2, ?_⟩
      exact meets_of_guarded_run FramedWorld.keepsTo_step FramedWorld.leavesAlone_of_keepsTo keeps guarded

/-- The first process is executed, and the console's `finish_process` for the second one has come to the
    `list_remove_element` on `queue_ready`. -/
def untilTakenOut : List FramedWorldEvent :=
  FramedWorld.steps (admitTwo ++ List.replicate 16 (.advance 1) ++ [.command 3 (.finishProcess 1)] ++
    List.replicate 19 (.advance 3))

/-- It goes on; the first process sleeps, and is executed again. -/
def sleepAndReturn : List FramedWorldEvent :=
  FramedWorld.steps (List.replicate 9 (.advance 3) ++
    [.cpuExecute (.sleep 5) [0, 0, 0, 0] 1, .receive 2] ++ List.replicate 5 (.advance 2)) ++
  [.readArguments 0] ++
  FramedWorld.steps (List.replicate 9 (.advance 4) ++ [.iterate 1] ++ List.replicate 16 (.advance 1))

theorem run_finish_is_final_witness :
    ∃ framed final,
      run (FramedWorld.step fifoConfig) (FramedWorld.init fifoConfig) untilTakenOut = some framed ∧
      run (FramedWorld.step fifoConfig) framed (.world (.advance 3) :: sleepAndReturn) = some final ∧
      final.world.Away 1 ∧
      Meets (FramedWorld.step fifoConfig) (FramedWorld.During (World.LeavesAlone 1)) framed
        (.world (.advance 3) :: sleepAndReturn) := by
  obtain ⟨final, ends⟩ : ∃ final, run (FramedWorld.step fifoConfig) (FramedWorld.init fifoConfig)
      (untilTakenOut ++ .world (.advance 3) :: sleepAndReturn) = some final :=
    Option.isSome_iff_exists.mp (by decide +kernel)
  rw [run_append] at ends
  obtain ⟨framed, reaches, goesOn⟩ := Option.bind_eq_some_iff.mp ends
  have guarded : ∀ framed ∈
      run (FramedWorld.step fifoConfig) (FramedWorld.init fifoConfig) untilTakenOut,
      Meets (FramedWorld.step fifoConfig) (FramedWorld.Guards (· ≠ 1)) framed
        (.world (.advance 3) :: sleepAndReturn) := by
    decide +kernel
  have facts : ∀ framed ∈
      run (FramedWorld.step fifoConfig) (FramedWorld.init fifoConfig) untilTakenOut,
      framed.world.roleAt 3 = some (.console (some (.finishProcess 1))) ∧
      framed.world.pool.nextOp 3 = some (.remove .ready 1) ∧ framed.world.memory.queueNew = [] ∧
      framed.world.memory.queueReady = [1] ∧ framed.world.memory.queueExec = [0] ∧
      (framed.world.memory.pcb 0).pid = 0 ∧ framed.world.memory.listOfQueueBlocked = [[]] ∧
      framed.world.memory.createdThreads = [] ∧
      framed.world.memory.cpuDispatchConnection.map (fun sent => sent.2.pid) = [0] ∧
      framed.world.cpuMessages = [] ∧ framed.world.memory.idToAssign = 2 ∧
      framed.world.pool.threads.length = 4 ∧
      ∀ other < 3, ∀ thread ∈ framed.world.pool.threads[other]?, thread.Idle := by
    decide +kernel
  obtain ⟨console, nextOp, new, ready, exec, pidZero, blocked, created, sent, messages, idToAssign,
    threads, idle⟩ := facts framed reaches
  have only : framed.world.OnlyCopy fifoConfig 1 3 := by
    refine ⟨fun id process member same => ?_, by simp [created], fun package inside same => ?_,
      by simp [messages], fun other thread at_other => ?_, by rw [idToAssign]; decide⟩
    · cases id with
      | new => simp [Memory.queue, new] at member
      | ready =>
          obtain rfl : process = 1 := by simpa [Memory.queue, ready] using member
          exact ⟨nextOp, by rw [Memory.queue, ready]; decide⟩
      | exec =>
          obtain rfl : process = 0 := by simpa [Memory.queue, exec] using member
          rw [pidZero] at same
          cases same
      | blocked index =>
          obtain ⟨queue, inList, inQueue⟩ := Memory.mem_blocked member
          simp only [blocked, List.mem_singleton] at inList
          rw [inList] at inQueue
          cases inQueue
    · have inPids :
          package.2.pid ∈ framed.world.memory.cpuDispatchConnection.map (fun sent => sent.2.pid) :=
        List.mem_map.mpr ⟨package, inside, rfl⟩
      rw [sent, same] at inPids
      cases List.mem_singleton.mp inPids
    · obtain ⟨inside, _⟩ := List.getElem?_eq_some_iff.mp at_other
      by_cases here : other = 3
      · subst here
        rw [Pool.nextOp, show framed.world.pool.threads[3]? = some thread from at_other] at nextOp
        exact .inr ⟨rfl, _, nextOp, trivial⟩
      · exact .inl (.of_idle (idle other (by omega) thread at_other))
  obtain ⟨away, leaves⟩ := run_finish_is_final fifoConfig untilTakenOut framed final 1 3
    sleepAndReturn (by decide +kernel) reaches console only (guarded framed reaches) goesOn
  exact ⟨framed, final, reaches, goesOn, away, leaves⟩

/-- The process that the CPU executes has said that it sleeps, and the kernel has not read that yet. -/
def untilSleepSent : List FramedWorldEvent :=
  FramedWorld.steps (admitTwo ++ List.replicate 16 (.advance 1) ++
    [.cpuExecute (.sleep 5) [0, 0, 0, 0] 1])

/-- The console finishes it. -/
def finishSleeping : List FramedWorldEvent :=
  FramedWorld.steps (.command 3 (.finishProcess 0) :: List.replicate 32 (.advance 3))

/-- The message is handled, its thread puts the process back, and the planner dispatches the other process
    and then this one, up to its `send_pcb`. -/
def handleSleepSent : List FramedWorldEvent :=
  FramedWorld.steps (.receive 2 :: List.replicate 5 (.advance 2)) ++ [.readArguments 0] ++
  FramedWorld.steps (List.replicate 9 (.advance 4) ++ [.iterate 1] ++
    List.replicate 16 (.advance 1) ++ [.iterate 1] ++ List.replicate 12 (.advance 1))

/-- The console finishes the process whose SLEEP message is on its way: it is in no queue when the command
    has been carried out, but later it is in `queue_exec` again, and is sent to the CPU. -/
theorem run_finished_process_returns :
    ∃ framed handled last,
      run (FramedWorld.step fifoConfig) (FramedWorld.init fifoConfig) untilSleepSent = some framed ∧
      (∃ process ∈ framed.world.memory.queueExec, (framed.world.memory.pcb process).pid = 0) ∧
      run (FramedWorld.step fifoConfig) framed finishSleeping = some handled ∧
      handled.world.pool.nextOp 3 = none ∧ handled.world.Away 0 ∧
      run (FramedWorld.step fifoConfig) handled handleSleepSent = some last ∧
      ¬ last.world.Away 0 ∧ ¬ last.world.LeavesAlone 0 (.advance 1) ∧
      ∃ process, (last.world.memory.pcb process).pid = 0 ∧
        last.world.pool.nextOp 1 = some (.sendToCpu .executeProcess process) := by
  obtain ⟨last, ends⟩ : ∃ last, run (FramedWorld.step fifoConfig) (FramedWorld.init fifoConfig)
      (untilSleepSent ++ (finishSleeping ++ handleSleepSent)) = some last :=
    Option.isSome_iff_exists.mp (by decide +kernel)
  have reachesLast := ends
  rw [run_append] at ends
  obtain ⟨framed, reaches, goesOn⟩ := Option.bind_eq_some_iff.mp ends
  rw [run_append] at goesOn
  obtain ⟨handled, finishes, returns⟩ := Option.bind_eq_some_iff.mp goesOn
  have live : ∀ framed ∈
      run (FramedWorld.step fifoConfig) (FramedWorld.init fifoConfig) untilSleepSent,
      ∃ process ∈ framed.world.memory.queueExec, (framed.world.memory.pcb process).pid = 0 := by
    decide +kernel
  have away : ∀ handled ∈ run (FramedWorld.step fifoConfig) (FramedWorld.init fifoConfig)
      (untilSleepSent ++ finishSleeping),
      handled.world.pool.nextOp 3 = none ∧ handled.world.Away 0 := by
    decide +kernel
  have back : ∀ last ∈ run (FramedWorld.step fifoConfig) (FramedWorld.init fifoConfig)
      (untilSleepSent ++ (finishSleeping ++ handleSleepSent)), ¬ last.world.Away 0 ∧
        (last.world.memory.pcb 2).pid = 0 ∧
        last.world.pool.nextOp 1 = some (.sendToCpu .executeProcess 2) := by
    decide +kernel
  have reachesHandled : run (FramedWorld.step fifoConfig) (FramedWorld.init fifoConfig)
      (untilSleepSent ++ finishSleeping) = some handled := by
    rw [run_append, reaches]
    exact finishes
  obtain ⟨idle, gone⟩ := away handled reachesHandled
  obtain ⟨queued, pidZero, sends⟩ := back last reachesLast
  exact ⟨framed, handled, last, reaches, live framed reaches, finishes, idle, gone, returns, queued,
    fun leaves => leaves _ sends pidZero, 2, pidZero, sends⟩

end OsSimulator
