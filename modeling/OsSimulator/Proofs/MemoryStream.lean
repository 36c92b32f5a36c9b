/-
Module: OsSimulator.Proofs.MemoryStream
Purpose: What memory receives.  `send_pcb` takes three `send`s, and nothing keeps another thread from
  sending on the same connection between them: the stream consists of whole packages exactly as long
  as no two threads are inside `send_pcb` at once.
Main exports: Chunk.bytes, SendPcbCall, Recorded, Recorded.Whole, World.OneSender,
  memory_stream_whole
-/
import OsSimulator.Proofs.Interleavings
import OsSimulator.Proofs.Framing
import OsSimulator.Proofs.Quiet
import OsSimulator.Proofs.Steps

namespace OsSimulator

open Bytes Threads Transition

/-- The bytes of one `send` of `send_package`. -/
def Chunk.bytes : Chunk → List UInt8
  | .header operation => [operation.value]
  | .length pcb => ofWord (addPcbToBuffer (createBuffer []) pcb).offset
  | .payload pcb => (addPcbToBuffer (createBuffer []) pcb).contents

/-- The chunk is the last one of its package. -/
def Chunk.isPayload : Chunk → Bool
  | .payload _ => true
  | _ => false

/-- The chunk that an operation sends to memory. -/
def Operation.chunk? : Operation → Option Chunk
  | .sendToMemory chunk => some chunk
  | _ => none

/-- A call of `send_pcb`. -/
structure SendPcbCall where
  header : OperationCode
  pcb : Pcb
deriving DecidableEq, Repr

/-- The bytes that the call sends when it is alone. -/
def SendPcbCall.bytes (call : SendPcbCall) : List UInt8 := (sendPcb [] call.header call.pcb).bytes

/-- What a thread has sent of the call of `send_pcb` that it is inside. -/
def unfinishedSend (thread : Thread Role Operation Memory) : List Chunk :=
  ((thread.performed.filterMap Operation.chunk?).takeWhile fun chunk => !chunk.isPayload).reverse

namespace World

/-- What the thread at `index` has sent of the call of `send_pcb` that it is inside. -/
def unfinishedAt (world : World) (index : Nat) : List Chunk :=
  (world.pool.threads[index]?.map unfinishedSend).getD []

/-- The call of `send_pcb` that a step completes. -/
def completedCall (world : World) : WorldEvent → List SendPcbCall
  | .advance index =>
      match world.pool.nextOp index, world.unfinishedAt index with
      | some (.sendToMemory (.payload pcb)), .header header :: _ => [⟨header, pcb⟩]
      | _, _ => []
  | _ => []

/-- If the step sends to memory, no other thread is inside `send_pcb`. -/
def OneSender (world : World) : WorldEvent → Prop
  | .advance index =>
      ((world.pool.nextOp index).bind Operation.chunk?).isSome = true →
        ∀ other < world.pool.threads.length, other ≠ index → world.unfinishedAt other = []
  | _ => True

instance (world : World) : ∀ event, Decidable (world.OneSender event)
  | .advance index =>
      inferInstanceAs (Decidable (((world.pool.nextOp index).bind Operation.chunk?).isSome = true →
        ∀ other < world.pool.threads.length, other ≠ index → world.unfinishedAt other = []))
  | .iterate _ | .connect | .command .. | .receive _ | .startSleeper | .cpuExecute ..
  | .cpuReadInterrupt => isTrue trivial

end World

/-- The world and the calls of `send_pcb` that were completed in it. -/
structure Recorded where
  world : World
  calls : List SendPcbCall

namespace Recorded

/-- A step of the world, with the call that it completes. -/
def step (config : KernelConfig) (recorded : Recorded) (event : WorldEvent) : Option Recorded :=
  (recorded.world.step config event).map fun next =>
    { world := next, calls := recorded.calls ++ recorded.world.completedCall event }

/-- The beginning. -/
def init (config : KernelConfig) : Recorded := { world := World.init config, calls := [] }

/-- What memory has received is what each completed call sends when it is alone, one after the other,
    and then what the only thread that is inside `send_pcb` has sent, if there is one. -/
structure Whole (recorded : Recorded) : Prop where
  stream : recorded.world.memory.memoryConnection.flatMap Chunk.bytes =
    recorded.calls.flatMap SendPcbCall.bytes ++
      (recorded.world.pool.threads.flatMap unfinishedSend).flatMap Chunk.bytes
  alone : ∀ first second : Nat, recorded.world.unfinishedAt first ≠ [] →
    recorded.world.unfinishedAt second ≠ [] → first = second

end Recorded

/-! ### The discipline of sending -/

/-- The operation sends nothing to memory. -/
@[simp] def Operation.Mute (op : Operation) : Prop := op.chunk?.isSome = false

/-- The operations of a call of `send_pcb` that has the connection, the last one first. -/
def SendPcbCall.operations (call : SendPcbCall) : List Operation :=
  [.sendToMemory (.payload call.pcb), .sendToMemory (.length call.pcb),
    .sendToMemory (.header call.header)]

/-- A thread calls `send_pcb` at most once. -/
def sending : Discipline Role Operation Memory where
  relevant op := op.chunk?.isSome
  guard _ _ _ := True
  during _ trace := ∃ call : SendPcbCall, trace <:+ call.operations
  ending _ trace := trace = [] ∨ ∃ call : SendPcbCall, trace = call.operations

namespace Code

/-- The code sends nothing to memory. -/
abbrev Mute {α : Type} (code : Code α) : Prop := code.Every Operation.Mute

variable {α β : Type} {role : Role}

theorem mute_look_bind {value : Memory → α} {after : α → Code β}
    (rest : ∀ result, (after result).Mute) : (look value >>= after).Mute :=
  ⟨rfl, fun memory => rest (value memory)⟩

@[simp] theorem mute_semWait (semaphore : Semaphore) : (semWait semaphore).Mute :=
  ⟨rfl, fun _ => trivial⟩

@[simp] theorem mute_semPost (semaphore : Semaphore) : (semPost semaphore).Mute :=
  ⟨rfl, fun _ => trivial⟩

theorem mute_observe (op : Operation) {value : Memory → α} (mute : op.chunk?.isSome = false) :
    Mute (Program.observe op value) := ⟨mute, fun _ => trivial⟩

@[simp] theorem mute_dereference (process : Option PcbPointer) :
    (dereference process).Mute := every_dereference Operation.Mute rfl process

@[simp] theorem mute_pushLocked (id : QueueId) (process : PcbPointer) :
    (pushLocked id process).Mute := by
  simp [pushLocked, Operation.chunk?]

@[simp] theorem mute_removeLocked (id : QueueId) (process : PcbPointer) :
    (removeLocked id process).Mute := by
  simp [removeLocked, Operation.chunk?]

@[simp] theorem mute_popLocked (id : QueueId) : (popLocked id).Mute := by
  simp [popLocked, Operation.chunk?]

@[simp] theorem mute_allocate (pcb : Pcb) : (allocate pcb).Mute :=
  mute_observe (.allocate pcb) rfl

@[simp] theorem mute_buildAllQueuesInList : buildAllQueuesInList.Mute := by
  simp [buildAllQueuesInList, look, Operation.chunk?]

theorem mute_searchQueues (pid : UInt32) (ids : List QueueId) : (searchQueues pid ids).Mute :=
  every_searchQueues Operation.Mute (fun id => mute_semWait id.mutex)
    (fun id => mute_semPost id.mutex) (fun _ _ => rfl) pid ids

@[simp] theorem mute_moveProcessFromBlockToReady (process : PcbPointer) (index : Nat) :
    (moveProcessFromBlockToReady process index).Mute := by
  simp [moveProcessFromBlockToReady, Operation.chunk?]

@[simp] theorem mute_checkProcessInBlockedAndSendToReady :
    checkProcessInBlockedAndSendToReady.Mute :=
  every_checkProcessInBlockedAndSendToReady Operation.Mute rfl rfl (mute_semWait _) (mute_semPost _)
    mute_moveProcessFromBlockToReady

@[simp] theorem mute_updateQueueSemaphores (state : ProcessState) :
    (updateQueueSemaphores state).Mute := by
  cases state <;> simp [updateQueueSemaphores]

@[simp] theorem mute_freeResourcesRetained (process : PcbPointer) :
    (freeResourcesRetained process).Mute :=
  every_freeResourcesRetained Operation.Mute rfl (fun _ => rfl) process

@[simp] theorem mute_moveProcessToReady : moveProcessToReady.Mute := by
  apply Program.Every.bind (mute_popLocked _)
  intro element
  apply Program.Every.bind (mute_dereference element)
  intro process
  simp [Operation.chunk?]

@[simp] theorem mute_dispatchProcessToCpu (process : PcbPointer) (header : OperationCode) :
    (dispatchProcessToCpu process header).Mute := by
  simp [dispatchProcessToCpu, Operation.chunk?]

@[simp] theorem mute_moveProcessToExec : moveProcessToExec.Mute := by
  apply Program.Every.bind (mute_popLocked _)
  intro element
  apply Program.Every.bind (mute_dereference element)
  intro process
  simp [Operation.chunk?]

@[simp] theorem mute_moveProcessFromExecToBlocked (index : Nat) :
    (moveProcessFromExecToBlocked index).Mute := by
  apply Program.Every.bind (mute_popLocked _)
  intro element
  apply Program.Every.bind (mute_dereference element)
  intro process
  simp [Operation.chunk?]

theorem mute_longTermPlanner : longTermPlanner.Mute := by
  simp [longTermPlanner]

theorem mute_shortTermPlanner (config : KernelConfig) : (shortTermPlanner config).Mute := by
  rcases shortTermPlanner_cases config with fifo | roundRobin | priorities | unknown
  · simp [fifo, planingWithFifo]
  · simp [roundRobin, planningWithRoundRobin, interruptProcess, Operation.chunk?]
  · simp [priorities, planningWithPriorities, sortQueue, Operation.chunk?]
  · simp [unknown]

theorem mute_threadSleepProcess (process : PcbPointer) :
    (threadSleepProcess process).Mute := by
  apply Program.Every.bind (mute_popLocked _)
  intro popped
  simp [Operation.chunk?]

/-- The code calls `send_pcb` at most once, from its beginning to its end. -/
def SendsOnce (code : Code Unit) : Prop :=
  ∀ role, code.Keeps sending role (fun trace _ => sending.ending role trace) []

theorem during_nil (role : Role) : sending.during role [] :=
  ⟨⟨.createProcess, Memory.noPcb⟩, List.nil_suffix⟩

theorem Mute.sendsOnce {code : Code Unit} (mute : code.Mute) : code.SendsOnce := fun role =>
  Program.Every.keeps mute (during_nil role) fun _ => .inl rfl

/-- Mute code may come before. -/
theorem SendsOnce.after {first : Code α} {rest : α → Code Unit} (mute : first.Mute)
    (sends : ∀ result, (rest result).SendsOnce) : (first >>= rest).SendsOnce := fun role =>
  Program.Every.keeps_bind mute (during_nil role) fun result => sends result role

/-- `send_pcb` sends one package, and mute code may come after it. -/
theorem sendsOnce_sendPcbToMemory (header : OperationCode) (process : PcbPointer)
    {rest : Unit → Code Unit} (mute : (rest ()).Mute) :
    (sendPcbToMemory header process >>= rest).SendsOnce := by
  intro role
  rw [Program.keeps_bind]
  intro memory _
  let call : SendPcbCall := ⟨header, memory.pcb process⟩
  refine ⟨during_nil role, fun _ _ => ⟨⟨call, ?_⟩, fun _ _ => ⟨⟨call, ?_⟩, fun _ _ => ⟨⟨call, ?_⟩, ?_⟩⟩⟩⟩
  · exact ⟨[_, _], rfl⟩
  · exact ⟨[_], rfl⟩
  · exact ⟨[], rfl⟩
  · change (rest ()).Keeps sending role _ call.operations
    exact Program.Every.keeps mute ⟨call, [], rfl⟩ fun _ => .inr ⟨call, rfl⟩

theorem sendsOnce_finishProcess (pid : UInt32) : (finishProcess pid).SendsOnce := by
  apply SendsOnce.after mute_buildAllQueuesInList
  intro queues
  apply SendsOnce.after (mute_searchQueues pid queues)
  intro found
  cases found with
  | none => exact Mute.sendsOnce trivial
  | some place =>
      apply SendsOnce.after (mute_observe (.readState place.2) rfl)
      intro previousState
      apply SendsOnce.after (by simp [Operation.chunk?])
      intro _
      apply SendsOnce.after (mute_freeResourcesRetained _)
      intro _
      apply SendsOnce.after (mute_removeLocked _ _)
      intro _
      apply SendsOnce.after mute_checkProcessInBlockedAndSendToReady
      intro _
      exact sendsOnce_sendPcbToMemory _ _ (mute_updateQueueSemaphores previousState)

theorem sendsOnce_createProcess (path : String) (quantum clientSocket : Int32) :
    (handlerConnection (.createProcess path quantum clientSocket)).SendsOnce := by
  apply SendsOnce.after
  · apply mute_look_bind
    intro pid
    apply Program.Every.bind (mute_allocate _)
    intro process
    simp [Operation.chunk?]
  · intro process
    apply sendsOnce_sendPcbToMemory
    simp

theorem sendsOnce_handleWaitInterruption (process : PcbPointer) (resource : String) :
    (handleWaitInterruption process resource).SendsOnce := by
  apply SendsOnce.after (mute_observe .read rfl)
  intro valid
  split
  · apply Mute.sendsOnce
    apply mute_look_bind
    intro available
    split
    · simp [Operation.chunk?]
    · apply mute_look_bind
      intro index
      simp
  · apply SendsOnce.after (mute_observe .read rfl)
    exact sendsOnce_finishProcess

theorem sendsOnce_handleSignalInterruption (process : PcbPointer) (resource : String) :
    (handleSignalInterruption process resource).SendsOnce := by
  apply SendsOnce.after (mute_observe .read rfl)
  intro valid
  split
  · apply SendsOnce.after (mute_observe .read rfl)
    intro held
    split
    · apply Mute.sendsOnce
      simp [Operation.chunk?]
    · apply SendsOnce.after (mute_observe .read rfl)
      exact sendsOnce_finishProcess
  · apply SendsOnce.after (mute_observe .read rfl)
    exact sendsOnce_finishProcess

theorem sendsOnce_handleDispatchConnection (message : Message) :
    (handleDispatchConnection message).SendsOnce := by
  apply SendsOnce.after (mute_semWait _)
  intro _
  apply SendsOnce.after (mute_semPost _)
  intro _
  apply SendsOnce.after (mute_allocate _)
  intro process
  cases message.request with
  | finish => exact sendsOnce_finishProcess _
  | interrupt =>
      apply Mute.sendsOnce
      apply Program.Every.bind (mute_popLocked _)
      intro popped
      simp [Operation.chunk?]
  | wait resource => exact sendsOnce_handleWaitInterruption process resource
  | signal resource => exact sendsOnce_handleSignalInterruption process resource
  | sleep time =>
      apply Mute.sendsOnce
      simp [handleSleepInterruption, Operation.chunk?]

theorem sendsOnce_handlerConnection (command : Command) :
    (handlerConnection command).SendsOnce := by
  cases command with
  | createProcess path quantum clientSocket => exact sendsOnce_createProcess _ _ _
  | finishProcess pid => exact sendsOnce_finishProcess pid
  | startPlanning | stopPlanning =>
      apply Mute.sendsOnce
      simp [handlerConnection]
  | modifyMultiprogrammingDegree newDegree =>
      apply Mute.sendsOnce
      change (modifyMultiprogrammingDegree newDegree).Mute
      unfold modifyMultiprogrammingDegree
      split
      · exact mute_observe (.init .multiprogrammingDegree _) rfl
      · trivial
  | showAllProcesses =>
      apply Mute.sendsOnce
      apply Program.Every.bind mute_buildAllQueuesInList
      intro queues
      trivial

end Code

/-- Every program keeps to the discipline. -/
theorem sending_programs (config : KernelConfig) (role : Role) :
    sending.during role [] ∧ (role.code config).Keeps sending role
      (fun trace _ => sending.ending role trace) [] := by
  refine ⟨Code.during_nil role, ?_⟩
  have sends : (role.code config).SendsOnce := by
    cases role with
    | longTermPlanner => exact Code.Mute.sendsOnce Code.mute_longTermPlanner
    | shortTermPlanner => exact Code.Mute.sendsOnce (Code.mute_shortTermPlanner config)
    | dispatchHandler message =>
        cases message with
        | none => exact Code.Mute.sendsOnce trivial
        | some message => exact Code.sendsOnce_handleDispatchConnection message
    | console command =>
        cases command with
        | none => exact Code.Mute.sendsOnce trivial
        | some command => exact Code.sendsOnce_handlerConnection command
    | sleeper process sleepTime =>
        exact Code.Mute.sendsOnce (Code.mute_threadSleepProcess process)
  exact sends role

/-! ### What the threads have sent -/

section Unfinished

variable {thread : Thread Role Operation Memory} {op : Operation} {rest : Code Unit}

theorem unfinishedSend_of_mute (mute : op.chunk? = none) :
    unfinishedSend { thread with performed := op :: thread.performed, rest := rest } =
      unfinishedSend thread := by
  simp [unfinishedSend, mute]

theorem unfinishedSend_of_chunk {chunk : Chunk} (sends : op.chunk? = some chunk) :
    unfinishedSend { thread with performed := op :: thread.performed, rest := rest } =
      if chunk.isPayload then [] else unfinishedSend thread ++ [chunk] := by
  cases last : chunk.isPayload <;> simp [unfinishedSend, sends, last]

/-- What a thread has sent is in its trace. -/
theorem unfinishedSend_eq_trace :
    unfinishedSend thread =
      (((thread.performed.filter sending.relevant).filterMap Operation.chunk?).takeWhile
        fun chunk => !chunk.isPayload).reverse := by
  have same : (thread.performed.filter sending.relevant).filterMap Operation.chunk? =
      thread.performed.filterMap Operation.chunk? := by
    rw [List.filterMap_filter]
    apply List.filterMap_congr
    intro op _
    cases sent : op.chunk? <;> simp [sending, sent]
  rw [unfinishedSend, same]

/-- A thread that is through is not inside `send_pcb`. -/
theorem unfinishedSend_of_idle (follows : thread.Follows sending) (idle : thread.Idle) :
    unfinishedSend thread = [] := by
  rw [unfinishedSend_eq_trace]
  rcases follows.ending idle with nothing | ⟨call, everything⟩
  · rw [nothing]
    rfl
  · rw [everything]
    rfl

/-- A thread sends a header when it is not inside `send_pcb`, then a length, and then the payload of the
    same PCB. -/
theorem unfinishedSend_next {chunk : Chunk} (follows : thread.Follows sending)
    (next : thread.nextOp = some (.sendToMemory chunk)) :
    (∃ header, chunk = .header header ∧ unfinishedSend thread = []) ∨
      (∃ header pcb, chunk = .length pcb ∧ unfinishedSend thread = [.header header]) ∨
      ∃ header pcb, chunk = .payload pcb ∧
        unfinishedSend thread = [.header header, .length pcb] := by
  obtain ⟨call, during⟩ := follows.during_next (Classical.arbitrary Memory) next trivial
  rw [unfinishedSend_eq_trace]
  generalize thread.performed.filter sending.relevant = trace at during ⊢
  have recorded : sending.record (.sendToMemory chunk) trace = .sendToMemory chunk :: trace := rfl
  rw [recorded] at during
  simp only [SendPcbCall.operations, List.suffix_cons_iff, List.suffix_nil, List.cons.injEq,
    Operation.sendToMemory.injEq, reduceCtorEq, or_false] at during
  rcases during with ⟨rfl, rfl⟩ | ⟨rfl, rfl⟩ | ⟨rfl, rfl⟩
  · exact .inr (.inr ⟨call.header, call.pcb, rfl, rfl⟩)
  · exact .inr (.inl ⟨call.header, call.pcb, rfl, rfl⟩)
  · exact .inl ⟨call.header, rfl, rfl⟩

end Unfinished

/-! ### The stream -/

section Lists

variable {α β : Type}

/-- Lists with the same parts at every place have the same concatenation; a missing part is empty. -/
theorem flatMap_congr_getElem? {parts : α → List β} {first second : List α}
    (same : ∀ index : Nat,
      (first[index]?.map parts).getD [] = (second[index]?.map parts).getD []) :
    first.flatMap parts = second.flatMap parts := by
  induction first generalizing second with
  | nil =>
      rw [eq_comm, List.flatMap_nil, List.flatMap_eq_nil_iff]
      intro element member
      obtain ⟨index, at_index⟩ := List.mem_iff_getElem?.mp member
      simpa [at_index] using (same index).symm
  | cons head tail ih =>
      cases second with
      | nil =>
          rw [List.flatMap_nil, List.flatMap_eq_nil_iff]
          intro element member
          obtain ⟨index, at_index⟩ := List.mem_iff_getElem?.mp member
          simpa [at_index] using same index
      | cons other others =>
          have heads : parts head = parts other := by simpa using same 0
          rw [List.flatMap_cons, List.flatMap_cons, heads,
            ih fun index => by simpa using same (index + 1)]

/-- If all other parts are empty, the concatenation is the one that is left. -/
theorem flatMap_eq_of_alone {parts : α → List β} {list : List α} {index : Nat}
    (alone : ∀ other, other ≠ index → (list[other]?.map parts).getD [] = []) :
    list.flatMap parts = (list[index]?.map parts).getD [] := by
  induction list generalizing index with
  | nil => simp
  | cons head tail ih =>
      cases index with
      | zero =>
          have rest : tail.flatMap parts = [] := by
            rw [List.flatMap_eq_nil_iff]
            intro element member
            obtain ⟨position, at_position⟩ := List.mem_iff_getElem?.mp member
            simpa [at_position] using alone (position + 1) (Nat.succ_ne_zero position)
          simp [rest]
      | succ index =>
          have first : parts head = [] := by simpa using alone 0 (Nat.succ_ne_zero index).symm
          rw [List.flatMap_cons, first, List.nil_append, List.getElem?_cons_succ]
          apply ih
          intro other different
          simpa using alone (other + 1) (by omega)

end Lists

/-- Only `send` changes what memory has received. -/
theorem Operation.memoryConnection_of_mute {config : KernelConfig} {op : Operation}
    {memory after : Memory} (mute : op.chunk? = none)
    (performed : op.perform config memory = some after) :
    after.memoryConnection = memory.memoryConnection := by
  cases op with
  | wait semaphore =>
      obtain ⟨_, result⟩ := Option.ite_none_right_eq_some.mp performed
      obtain rfl := Option.some.inj result
      rfl
  | modifyInstance resource value =>
      simp only [perform] at performed
      split at performed <;> obtain rfl := Option.some.inj performed <;> rfl
  | sendToMemory chunk => cases mute
  | nullPointer => cases performed
  | push id process | pop id | remove id process =>
      obtain rfl := Option.some.inj performed
      cases id <;> rfl
  | sort | post semaphore | init semaphore value | read | readState process | allocate pcb | nextId
  | find id pid | setState process state | advanceCounter process | addResource process resource
  | removeResource process resource | sendToCpu header process | sendInterrupt
  | createThread process sleepTime =>
      obtain rfl := Option.some.inj performed
      rfl

namespace Recorded

variable {config : KernelConfig} {recorded next : Recorded} {event : WorldEvent}

/-- Whether memory has received whole packages depends on what it has received and on what the threads
    have sent. -/
theorem whole_congr
    (connection : next.world.memory.memoryConnection = recorded.world.memory.memoryConnection)
    (calls : next.calls = recorded.calls)
    (unfinished : ∀ index, next.world.unfinishedAt index = recorded.world.unfinishedAt index) :
    next.Whole ↔ recorded.Whole := by
  have parts : next.world.pool.threads.flatMap unfinishedSend =
      recorded.world.pool.threads.flatMap unfinishedSend := flatMap_congr_getElem? unfinished
  constructor
  · intro whole
    refine ⟨?_, ?_⟩
    · rw [← connection, whole.stream, calls, parts]
    · intro first second
      rw [← unfinished, ← unfinished]
      exact whole.alone first second
  · intro whole
    refine ⟨?_, ?_⟩
    · rw [connection, whole.stream, calls, parts]
    · intro first second
      rw [unfinished, unfinished]
      exact whole.alone first second

end Recorded

namespace World

variable {config : KernelConfig} {world next : World} {event : WorldEvent} {index : Nat}

/-- What the threads have sent is changed only by the thread that performs an operation. -/
theorem unfinishedAt_advance {thread : Thread Role Operation Memory} {op : Operation}
    {rest : Code Unit} {state : Memory} (at_index : world.pool.threads[index]? = some thread)
    (pool_eq : next.pool =
      { state := state
        threads := world.pool.threads.set index
          { thread with performed := op :: thread.performed, rest := rest } }) (other : Nat) :
    next.unfinishedAt other =
      if other = index then
        unfinishedSend { thread with performed := op :: thread.performed, rest := rest }
      else
        world.unfinishedAt other := by
  obtain ⟨inside, _⟩ := List.getElem?_eq_some_iff.mp at_index
  unfold unfinishedAt
  rw [pool_eq]
  split
  · rename_i here
    subst here
    rw [List.getElem?_set_self inside]
    rfl
  · rename_i different
    rw [List.getElem?_set_ne (Ne.symm different)]

/-- Steps that perform no operation of a thread leave the stream and what the threads have sent as they
    were. -/
theorem stream_of_not_advance (follows : world.pool.Follows sending)
    (stepped : world.step config event = some next) (other : ∀ index, event ≠ .advance index) :
    next.memory.memoryConnection = world.memory.memoryConnection ∧
      ∀ index, next.unfinishedAt index = world.unfinishedAt index := by
  have step := World.poolStep stepped
  unfold unfinishedAt memory
  generalize next.pool = pool at step ⊢
  cases step with
  | @advance index _ _ => exact absurd rfl (other index)
  | @restart _ place old role _ at_old idle _ =>
      refine ⟨rfl, fun index => ?_⟩
      by_cases here : place = index
      · subst here
        obtain ⟨inside, _⟩ := List.getElem?_eq_some_iff.mp at_old
        have mute := unfinishedSend_of_idle (follows old (List.mem_of_getElem? at_old)) idle
        rw [List.getElem?_set_self inside, at_old, Option.map_some, Option.map_some, mute]
        rfl
      · rw [List.getElem?_set_ne here]
  | @spawn _ role state _ _ same =>
      refine ⟨?_, fun index => ?_⟩
      · rw [same]
        rfl
      · cases at_index : (Pool.spawn role (role.code config)
            { world.pool with state := state }).threads[index]? with
        | none =>
            have before : world.pool.threads[index]? = none := by
              rw [List.getElem?_eq_none_iff] at at_index ⊢
              simp only [Pool.spawn, List.length_append] at at_index
              omega
            rw [before]
        | some thread =>
            rcases Pool.getElem?_of_spawn at_index with before | ⟨last, rfl⟩
            · rw [before]
            · rw [last, List.getElem?_eq_none (Nat.le_refl _)]
              rfl
  | environment same =>
      refine ⟨?_, fun index => rfl⟩
      rw [same]

end World

namespace Recorded

variable {config : KernelConfig} {recorded next : Recorded} {event : WorldEvent} {index : Nat}

theorem unfinishedAt_of_length_le {world : World} (past : world.pool.threads.length ≤ index) :
    world.unfinishedAt index = [] := by
  rw [World.unfinishedAt, List.getElem?_eq_none past]
  rfl

/-- If nobody else is inside `send_pcb`, the threads together have sent what this one has. -/
theorem flatMap_unfinished {world : World}
    (others : ∀ other, other ≠ index → world.unfinishedAt other = []) :
    world.pool.threads.flatMap unfinishedSend = world.unfinishedAt index :=
  flatMap_eq_of_alone others

/-- One `send`: the packages stay whole exactly if nobody else is inside `send_pcb`. -/
theorem whole_send {thread : Thread Role Operation Memory} {chunk : Chunk} {rest : Code Unit}
    (follows : recorded.world.pool.Follows sending) (whole : recorded.Whole)
    (at_index : recorded.world.pool.threads[index]? = some thread)
    (nextOp : thread.nextOp = some (.sendToMemory chunk))
    (pool_eq : next.world.pool =
      { state := { recorded.world.memory with
          memoryConnection := recorded.world.memory.memoryConnection ++ [chunk] }
        threads := recorded.world.pool.threads.set index
          { thread with performed := .sendToMemory chunk :: thread.performed, rest := rest } })
    (calls_eq : next.calls = recorded.calls ++ recorded.world.completedCall (.advance index)) :
    next.Whole ↔ recorded.world.OneSender (.advance index) := by
  have here : recorded.world.unfinishedAt index = unfinishedSend thread := by
    rw [World.unfinishedAt, at_index]
    rfl
  have poolNext : recorded.world.pool.nextOp index = some (.sendToMemory chunk) := by
    rw [Pool.nextOp, at_index]
    exact nextOp
  have after := World.unfinishedAt_advance at_index pool_eq
  have self := after index
  have sends : (Operation.sendToMemory chunk).chunk? = some chunk := rfl
  rw [if_pos rfl, unfinishedSend_of_chunk sends] at self
  have connection : next.world.memory.memoryConnection =
      recorded.world.memory.memoryConnection ++ [chunk] := by
    rw [World.memory, pool_eq]
  have guard_iff : recorded.world.OneSender (.advance index) ↔
      ∀ other, other ≠ index → recorded.world.unfinishedAt other = [] := by
    simp only [World.OneSender, poolNext, Option.bind_some, Operation.chunk?, Option.isSome_some,
      true_implies]
    constructor
    · intro inside other different
      by_cases below : other < recorded.world.pool.threads.length
      · exact inside other below different
      · exact unfinishedAt_of_length_le (Nat.le_of_not_lt below)
    · intro all other _ different
      exact all other different
  rw [guard_iff]
  constructor
  · intro nextWhole other different
    by_contra inside
    have insideNext : next.world.unfinishedAt other ≠ [] := by
      rw [after other, if_neg different]
      exact inside
    rcases unfinishedSend_next (follows thread (List.mem_of_getElem? at_index)) nextOp with
      ⟨header, rfl, none_yet⟩ | ⟨header, pcb, rfl, before⟩ | ⟨header, pcb, rfl, before⟩
    · exact different (nextWhole.alone other index insideNext (by simp [self, none_yet, Chunk.isPayload]))
    · exact different (whole.alone other index inside (by simp [here, before]))
    · exact different (whole.alone other index inside (by simp [here, before]))
  · intro others
    have othersNext : ∀ other, other ≠ index → next.world.unfinishedAt other = [] := by
      intro other different
      rw [after other, if_neg different]
      exact others other different
    have stream := whole.stream
    rw [flatMap_unfinished others, here] at stream
    refine ⟨?_, ?_⟩
    · rw [connection, flatMap_unfinished othersNext, self, calls_eq, List.flatMap_append, stream]
      rcases unfinishedSend_next (follows thread (List.mem_of_getElem? at_index)) nextOp with
        ⟨header, rfl, none_yet⟩ | ⟨header, pcb, rfl, before⟩ | ⟨header, pcb, rfl, before⟩
      · simp [World.completedCall, poolNext, Chunk.isPayload, none_yet]
      · simp [World.completedCall, poolNext, Chunk.isPayload, before]
      · have completed : recorded.world.completedCall (.advance index) = [⟨header, pcb⟩] := by
          simp [World.completedCall, poolNext, here, before]
        have package : SendPcbCall.bytes ⟨header, pcb⟩ =
            [Chunk.header header, .length pcb, .payload pcb].flatMap Chunk.bytes := by
          simp [SendPcbCall.bytes, sendPcb, Package.bytes, createPackage, Chunk.bytes]
        simp [completed, package, before, Chunk.isPayload]
    · intro first second firstInside secondInside
      have isIndex : ∀ other, next.world.unfinishedAt other ≠ [] → other = index := by
        intro other inside
        by_contra different
        exact inside (othersNext other different)
      rw [isIndex first firstInside, isIndex second secondInside]

/-- Every step: the packages stay whole exactly if it keeps to one sender. -/
theorem whole_step (follows : recorded.world.pool.Follows sending) (whole : recorded.Whole)
    (stepped : recorded.step config event = some next) :
    next.Whole ↔ recorded.world.OneSender event := by
  obtain ⟨world, worldStep, rfl⟩ := Option.map_eq_some_iff.mp stepped
  by_cases advances : ∃ index, event = .advance index
  · obtain ⟨index, rfl⟩ := advances
    obtain ⟨pool, advanced, rfl⟩ := Option.map_eq_some_iff.mp worldStep
    obtain ⟨thread, op, rest, after, at_index, program, performed, rfl⟩ :=
      Pool.advance_cases advanced
    have nextOp := Thread.nextOp_of_rest program
    cases sends : op.chunk? with
    | some chunk =>
        obtain rfl : op = .sendToMemory chunk := by
          cases op <;> simp_all [Operation.chunk?]
        obtain rfl := Option.some.inj performed
        exact whole_send follows whole at_index nextOp rfl rfl
    | none =>
        have poolNext : recorded.world.pool.nextOp index = some op := by
          rw [Pool.nextOp, at_index]
          exact nextOp
        have guarded : recorded.world.OneSender (.advance index) := by
          intro isSend
          simp [poolNext, sends] at isSend
        have noCall : recorded.world.completedCall (.advance index) = [] := by
          simp only [World.completedCall, poolNext]
          cases op with
          | sendToMemory chunk => cases sends
          | _ => rfl
        refine iff_of_true ((whole_congr ?_ ?_ ?_).mpr whole) guarded
        · exact Operation.memoryConnection_of_mute sends performed
        · rw [noCall, List.append_nil]
        · intro other
          rw [World.unfinishedAt_advance at_index rfl, unfinishedSend_of_mute sends]
          split
          · rename_i same
            rw [same, World.unfinishedAt, at_index]
            rfl
          · rfl
  · have other : ∀ index, event ≠ .advance index := not_exists.mp advances
    obtain ⟨connection, unfinished⟩ := World.stream_of_not_advance follows worldStep other
    have guarded : recorded.world.OneSender event ∧ recorded.world.completedCall event = [] := by
      cases event with
      | advance index => exact absurd rfl (other index)
      | _ => exact ⟨trivial, rfl⟩
    refine iff_of_true ((whole_congr connection ?_ unfinished).mpr whole) guarded.1
    rw [guarded.2, List.append_nil]

theorem follows_step (follows : recorded.world.pool.Follows sending)
    (stepped : recorded.step config event = some next) : next.world.pool.Follows sending := by
  obtain ⟨world, worldStep, rfl⟩ := Option.map_eq_some_iff.mp stepped
  exact (World.poolStep worldStep).follows (sending_programs config) (fun _ _ _ _ _ _ => trivial)
    follows

theorem follows_init (config : KernelConfig) : (init config).world.pool.Follows sending := by
  intro thread member
  simp only [init, World.init, List.mem_cons, List.not_mem_nil, or_false] at member
  rcases member with rfl | rfl | rfl
  · exact .start (sending_programs config _).1 (sending_programs config .longTermPlanner).2
  · exact .start (sending_programs config _).1 (sending_programs config .shortTermPlanner).2
  · exact .start (sending_programs config (.dispatchHandler none)).1
      (sending_programs config (.dispatchHandler none)).2

theorem whole_init (config : KernelConfig) : (init config).Whole where
  stream := rfl
  alone first second inside := by
    have mute : (World.init config).unfinishedAt first = [] := by
      match first with
      | 0 | 1 | 2 | _ + 3 => rfl
    exact absurd mute inside

/-- Every run of the world is recorded. -/
theorem run_of_world {events : List WorldEvent} {world : World}
    (reaches : run (World.step config) recorded.world events = some world) :
    ∃ calls, run (step config) recorded events = some ⟨world, calls⟩ := by
  induction events generalizing recorded with
  | nil =>
      obtain rfl : recorded.world = world := by simpa using reaches
      exact ⟨recorded.calls, rfl⟩
  | cons event events ih =>
      rw [run_cons] at reaches
      obtain ⟨between, taken, rest⟩ := Option.bind_eq_some_iff.mp reaches
      let next : Recorded := ⟨between, recorded.calls ++ recorded.world.completedCall event⟩
      have restNext : run (World.step config) next.world events = some world := rest
      obtain ⟨calls, recordedRest⟩ := ih restNext
      refine ⟨calls, ?_⟩
      rw [run_cons, step, taken]
      exact recordedRest

end Recorded

/-- Whatever the interleaving, memory receives whole packages throughout a run, one for each completed
    call of `send_pcb` and each as that call alone would have sent it, exactly if no thread ever sends
    on the connection while another one is inside `send_pcb`. -/
theorem memory_stream_whole (config : KernelConfig) (events : List WorldEvent) (final : Recorded)
    (reaches : run (Recorded.step config) (Recorded.init config) events = some final) :
    Throughout (Recorded.step config) Recorded.Whole (Recorded.init config) events ↔
      Meets (Recorded.step config) (fun recorded event => recorded.world.OneSender event)
        (Recorded.init config) events := by
  have sides : Meets (Recorded.step config) (fun _ _ => True) (Recorded.init config) events :=
    meets_of_forall fun _ _ => trivial
  exact throughout_iff_meets (fun recorded => recorded.world.pool.Follows sending)
    Recorded.follows_step (fun follows _ stepped whole => Recorded.whole_step follows whole stepped)
    (Recorded.follows_init config) (Recorded.whole_init config) sides reaches

/-- Two consoles each create a process, the second one after the first one is done. -/
def createInTurn : List WorldEvent :=
  [.connect, .connect, .command 3 (.createProcess "DEADLOCK_A" 0 5)] ++
    List.replicate 11 (.advance 3) ++ [.command 4 (.createProcess "DEADLOCK_B" 0 6)] ++
    List.replicate 11 (.advance 4)

theorem memory_stream_whole_createInTurn :
    ∃ final, run (Recorded.step fifoConfig) (Recorded.init fifoConfig) createInTurn = some final ∧
      Throughout (Recorded.step fifoConfig) Recorded.Whole (Recorded.init fifoConfig)
        createInTurn :=
  ⟨_, rfl, (memory_stream_whole fifoConfig createInTurn _ rfl).mpr (by decide +kernel)⟩

/-- Two consoles each create a process; each sends its header before the other one sends its
    length. -/
def createTogether : List WorldEvent :=
  [.connect, .connect, .command 3 (.createProcess "DEADLOCK_A" 0 5),
      .command 4 (.createProcess "DEADLOCK_B" 0 6)] ++
    List.replicate 5 (.advance 3) ++ List.replicate 5 (.advance 4) ++
    List.replicate 6 (.advance 3) ++ List.replicate 6 (.advance 4)

/-- Both calls are completed, and memory has received them in neither order. -/
theorem memory_stream_broken_createTogether :
    ∃ final first second,
      run (Recorded.step fifoConfig) (Recorded.init fifoConfig) createTogether = some final ∧
      final.calls = [first, second] ∧
      (∀ index < 5, final.world.unfinishedAt index = []) ∧
      final.world.memory.memoryConnection.flatMap Chunk.bytes ≠ first.bytes ++ second.bytes ∧
      final.world.memory.memoryConnection.flatMap Chunk.bytes ≠ second.bytes ++ first.bytes :=
  ⟨_, _, _, rfl, rfl, by decide +kernel, by decide +kernel, by decide +kernel⟩

end OsSimulator
