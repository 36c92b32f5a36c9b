/-
Module: OsSimulator.Proofs.Programs
Purpose: The system executes programs.  Whatever the planners, the other processes, the interrupts and
  the waits do, every PCB anywhere is where the execution of its file alone, line after line, has it at
  its program counter; and if the file is written in instructions, its registers are those of the
  reference machine there.
Main exports: Machine.registersAfter, Pcb.Follows, CpuSystem.Follows, cpu_run_follows_programs,
  ProgramLine, cpu_run_computes_as_written
-/
import OsSimulator.Proofs.Context
import OsSimulator.Proofs.CpuRefinement
import OsSimulator.Proofs.InstructionFetch
import OsSimulator.Proofs.InstructionSemantics

namespace OsSimulator

open Transition Lines

/-! ### A program alone -/

namespace Machine

/-- The line that is fetched for a counter. -/
def lineAt (machine : Machine) (path : String) (counter : Nat) : Option String :=
  getInstructionFromFile machine.memory.stringNew (machine.memory.instructionFile path)
    (.ofNat counter)

/-- The registers after so many lines of a file, which are executed alone; nothing is executed after an
    EXIT. -/
def registersAfter (machine : Machine) (path : String) : Nat → Option (List (BitVec 64))
  | 0 => some [0, 0, 0, 0]
  | counter + 1 => do
      let cpuRegister ← machine.registersAfter path counter
      let line ← machine.lineAt path counter
      let (cpuRegister, request) ← executeInstructionCycle machine.stringSplit cpuRegister line
      if request = some .finish then none else some cpuRegister

variable {machine : Machine} {path : String}

/-- The registers of a process that is created. -/
theorem start_narrow : ∀ cell ∈ ([0, 0, 0, 0] : List (BitVec 64)), Narrow cell := by
  intro cell member
  obtain rfl : cell = 0 := by simpa using member
  exact narrow_of_lowHalf 0 rfl

theorem registersAfter_narrow {counter : Nat} {cpuRegister : List (BitVec 64)}
    (executed : machine.registersAfter path counter = some cpuRegister) :
    ∀ cell ∈ cpuRegister, Narrow cell := by
  induction counter generalizing cpuRegister with
  | zero =>
      obtain rfl := Option.some.inj executed
      exact start_narrow
  | succ counter ih =>
      simp only [registersAfter, Option.bind_eq_bind, Option.bind_eq_some_iff] at executed
      obtain ⟨before, executedBefore, line, _, ⟨after, request⟩, cycle, ends⟩ := executed
      obtain ⟨_, result⟩ := Option.ite_none_left_eq_some.mp ends
      obtain rfl := Option.some.inj result
      exact (executeInstructionCycle_narrow cycle (ih executedBefore)).1

/-- What is executed has been executed up to every counter before. -/
theorem registersAfter_of_le {counter earlier : Nat} {cpuRegister : List (BitVec 64)}
    (executed : machine.registersAfter path counter = some cpuRegister) (before : earlier ≤ counter) :
    ∃ cells, machine.registersAfter path earlier = some cells := by
  induction before generalizing cpuRegister with
  | refl => exact ⟨cpuRegister, executed⟩
  | step _ ih =>
      obtain ⟨cells, executedBefore, _⟩ := Option.bind_eq_some_iff.mp executed
      exact ih executedBefore

end Machine

/-- An instruction that asks for something leaves the registers alone. -/
theorem executeInstructionCycle_request {stringSplit : String → List String}
    {cpuRegister after : List (BitVec 64)} {instruction : String} {request : CpuRequest}
    (executed : executeInstructionCycle stringSplit cpuRegister instruction =
      some (after, some request)) : after = cpuRegister := by
  simp only [executeInstructionCycle, Option.bind_eq_bind, Option.bind_eq_some_iff] at executed
  obtain ⟨mnemonic, _, executed⟩ := executed
  cases kind : translateInstruction mnemonic <;>
    simp only [kind, Option.bind_eq_some_iff, Option.pure_def, Option.some.injEq, Prod.mk.injEq,
      reduceCtorEq, and_false, exists_false] at executed
  case jnz =>
      obtain ⟨paramsOrder, _, index, _, executed⟩ := executed
      split at executed
      · obtain ⟨text, _, same⟩ := Option.bind_eq_some_iff.mp executed
        cases same
      · cases executed
  case sleep | wait | signal =>
      obtain ⟨paramsOrder, _, text, _, same, _⟩ := executed
      exact same.symm
  case exit => exact executed.1.symm

/-- The process is where the execution of its file alone has it at its program counter, up to the high
    halves of the registers, which do not survive the way through the kernel. -/
structure Pcb.Follows (machine : Machine) (process : Pcb) : Prop where
  counts : 0 ≤ process.programCounter
  registers : ∃ cpuRegister,
    machine.registersAfter process.path process.programCounter.toInt.toNat = some cpuRegister ∧
      process.cpuRegister.map lowHalf = cpuRegister.map lowHalf
  narrow : ∀ cell ∈ process.cpuRegister, Narrow cell

/-- The instruction at the program counter leaves the registers alone, and is not an EXIT. -/
def Pcb.FollowsNext (machine : Machine) (process : Pcb) : Prop :=
  { process with programCounter := process.programCounter + 1 }.Follows machine

theorem ofNat_counter {programCounter : Int32} (counts : 0 ≤ programCounter) :
    Int32.ofNat programCounter.toInt.toNat = programCounter := by
  have nonneg : 0 ≤ programCounter.toInt := Int32.le_iff_toInt_le.mp counts
  have bound := programCounter.toInt_lt
  apply Int32.toInt_inj.mp
  rw [Int32.toInt_ofNat_of_lt (by omega)]
  omega

namespace Pcb.Follows

variable {machine : Machine} {process other : Pcb}

theorem congr (follows : process.Follows machine) (path : other.path = process.path)
    (registers : other.cpuRegister = process.cpuRegister)
    (counter : other.programCounter = process.programCounter) : other.Follows machine := by
  obtain ⟨counts, executed, narrow⟩ := follows
  exact ⟨counter ▸ counts, by rw [path, registers, counter]; exact executed, registers ▸ narrow⟩

theorem setState (follows : process.Follows machine) (state : ProcessState) :
    (process.setState state).Follows machine := follows.congr rfl rfl rfl

/-- A process that is created. -/
theorem create (machine : Machine) (pid : UInt32) (path : String) (quantum clientSocket : Int32) :
    (createPcb pid path quantum clientSocket).Follows machine where
  counts := Int32.le_refl 0
  registers := ⟨[0, 0, 0, 0], rfl, rfl⟩
  narrow := Machine.start_narrow

/-- A turn of `execute_process` executes the next line, unless it is an EXIT. -/
theorem advanced {stale : List UInt8} {instruction : String} {cpuRegister : List (BitVec 64)}
    {request : Option CpuRequest} (follows : process.Follows machine)
    (sendable : process.Sendable)
    (answer : requestInstruction machine.memory stale process = some instruction)
    (cycle : executeInstructionCycle machine.stringSplit process.cpuRegister instruction =
      some (cpuRegister, request))
    (goesOn : request ≠ some .finish) :
    (process.advanced cpuRegister).Follows machine := by
  obtain ⟨counts, ⟨cells, executed, same⟩, narrow⟩ := follows
  rw [requestInstruction_of_sendable sendable] at answer
  have nonneg : 0 ≤ process.programCounter.toInt := Int32.le_iff_toInt_le.mp counts
  have bound := process.programCounter.toInt_lt
  have below : process.programCounter.toInt ≠ 2 ^ 31 - 1 := by
    intro last
    obtain ⟨file, _, found⟩ := Option.bind_eq_some_iff.mp answer
    simp [last] at found
  have next : (process.programCounter + 1).toInt = process.programCounter.toInt + 1 := by
    rw [Int32.toInt_add, Int.bmod_eq_of_le] <;> simp <;> omega
  have counter : (process.programCounter + 1).toInt.toNat =
      process.programCounter.toInt.toNat + 1 := by
    rw [next]
    omega
  have line : machine.lineAt process.path process.programCounter.toInt.toNat = some instruction := by
    rw [Machine.lineAt, ofNat_counter counts]
    exact answer
  have low := executeInstructionCycle_low machine.stringSplit instruction narrow
  rw [same, executeInstructionCycle_low _ _ (Machine.registersAfter_narrow executed), cycle] at low
  obtain ⟨⟨after, asked⟩, cycleAlone, results⟩ := Option.map_eq_some_iff.mp low
  obtain ⟨sameAfter, rfl⟩ := Prod.mk.inj results
  refine ⟨?_, ⟨after, ?_, sameAfter.symm⟩, (executeInstructionCycle_narrow cycle narrow).1⟩
  · apply Int32.le_iff_toInt_le.mpr
    dsimp only [Pcb.advanced]
    rw [next, Int32.toInt_zero]
    omega
  · dsimp only [Pcb.advanced]
    rw [counter, Machine.registersAfter, executed]
    simp only [Option.bind_eq_bind, Option.bind_some, line, cycleAlone, if_neg goesOn]

end Pcb.Follows

/-! ### The kernel -/

/-- The PCB of a message is where its file has it; if the message is an answer to wait for, the
    instruction that sent it is over once it is answered. -/
structure Message.Follows (machine : Machine) (message : Message) : Prop where
  pcb : message.pcb.Follows machine
  next : message.request ≠ .interrupt → message.request ≠ .finish →
    message.pcb.FollowsNext machine

theorem Message.Follows.leaves {machine : Machine} {message : Message} {pcb : Pcb}
    (follows : message.Follows machine) (leaves : message.Leaves pcb) : pcb.Follows machine := by
  cases leaves with
  | interrupted requested => exact follows.pcb.setState .ready
  | answered resource resources requested =>
      have next : message.pcb.FollowsNext machine := by
        rcases requested with requested | requested <;>
          exact follows.next (by simp [requested]) (by simp [requested])
      exact Pcb.Follows.congr next rfl rfl rfl
  | asleep time requested => exact follows.pcb

namespace System

variable {config : KernelConfig} {machine : Machine} {system next : System} {event : Event}

/-- Every PCB of the kernel and of the messages to it is where its file has it. -/
structure Follows (machine : Machine) (system : System) : Prop where
  queueNew : ∀ pcb ∈ system.kernel.queueNew, pcb.Follows machine
  carried : ∀ pcb ∈ system.kernel.carried, pcb.Follows machine
  sleeping : ∀ thread ∈ system.kernel.sleepThreads, thread.process.FollowsNext machine
  messages : ∀ message ∈ system.cpuMessages, message.Follows machine

theorem Follows.init (machine : Machine) (config : KernelConfig) :
    (System.init config).Follows machine where
  queueNew := by simp [System.init, Kernel.init]
  carried := by simp [System.init, Kernel.init, Kernel.carried]
  sleeping := by simp [System.init, Kernel.init]
  messages := by simp [System.init]

/-- The kernel moves PCBs, and counts an instruction only where it answers it. -/
theorem Follows.kernelStep (follows : system.Follows machine)
    (shape : system.kernel.Shape config) (ofKernel : event.isOfKernel = true)
    (taken : system.step config event = some next) : next.Follows machine := by
  have effect := step_cases taken
  have atHead (message : Message) (isHead : message ∈ system.cpuMessages.head?) :
      message.Follows machine := follows.messages message (List.mem_of_mem_head? isHead)
  refine ⟨fun pcb member => ?_, fun pcb member => ?_, fun thread member => ?_,
    fun message member => ?_⟩
  · rcases effect.queueNew member with old | ⟨path, quantum, clientSocket, rfl, rfl⟩
    · exact follows.queueNew pcb old
    · exact .create machine _ path quantum clientSocket
  · rcases effect.copyKernel shape member with
      ⟨old, inOld, state, rfl⟩ | ⟨message, isHead, _, leaves⟩ | ⟨process, rest, admits, rfl⟩ |
        ⟨thread, inThreads, rfl⟩
    · exact (follows.carried old inOld).setState state
    · exact (atHead message isHead).leaves leaves
    · exact (follows.queueNew process (by simp [admits.head])).setState .ready
    · exact Pcb.Follows.congr (follows.sleeping thread inThreads) rfl rfl rfl
  · rcases effect.sleepThreads member with
      ⟨old, wasThere, same⟩ | ⟨message, isHead, time, requested, same, _⟩
    · rw [← same]
      exact follows.sleeping old wasThere
    · rw [same]
      exact (atHead message isHead).next (by simp [requested]) (by simp [requested])
  · by_cases handles : event = .handleDispatch
    · subst handles
      cases effect with
      | plans _ quiet planning => exact planning.elim
      | handles handled rest kernel head effect result =>
          subst result
          exact follows.messages message (by rw [head]; exact List.mem_cons_of_mem _ member)
    · rw [(step_leaves ofKernel handles taken).2.1] at member
      exact follows.messages message member

end System

/-! ### The CPU -/

/-- What the thread is executing is where its file has it, and so is what it sends about it. -/
theorem Globals.proceed_follows {machine : Machine} {stale : List UInt8} {globals after : Globals}
    {handler next : Handler}
    (follows : ∀ process ∈ handler.position.process?, process.Follows machine)
    (sendable : ∀ process, handler.position = .executing process → process.Sendable)
    (proceeded : globals.proceed machine stale handler = some (after, next)) :
    (∀ process ∈ next.position.process?, process.Follows machine) ∧
      ∃ messages, after.sent = globals.sent ++ messages ∧
        ∀ message ∈ messages, message.Follows machine := by
  obtain ⟨position, tokens⟩ := handler
  have silent (reached : Position) (within : ∀ process ∈ reached.process?,
      process ∈ position.process?) : (∀ process ∈ reached.process?, process.Follows machine) ∧
        ∃ messages, globals.sent = globals.sent ++ messages ∧
          ∀ message ∈ messages, message.Follows machine :=
    ⟨fun process member => follows process (within process member), [], (List.append_nil _).symm,
      by simp⟩
  rw [Globals.proceed] at proceeded
  cases position with
  | listening | stopped => cases proceeded
  | preempting process =>
      cases proceeded
      refine ⟨by simp [Position.process?], [{ request := .interrupt, pcb := process }], rfl, ?_⟩
      intro message member
      obtain rfl := List.mem_singleton.mp member
      exact ⟨follows process rfl, fun notInterrupt => absurd rfl notInterrupt⟩
  | interrupting | retaking =>
      obtain ⟨_, result⟩ := Option.ite_none_right_eq_some.mp proceeded
      cases result
      exact silent _ (by simp [Position.process?])
  | locking process endOfExecution =>
      obtain ⟨_, result⟩ := Option.ite_none_right_eq_some.mp proceeded
      cases result
      cases endOfExecution <;> exact silent _ fun _ member => member
  | raising | raised | rejecting | clearing =>
      cases proceeded
      exact silent _ (by simp [Position.process?])
  | unlocking process endOfExecution =>
      cases proceeded
      cases endOfExecution <;> exact silent _ fun _ member => member
  | testing process endOfExecution =>
      cases proceeded
      cases endOfExecution <;> cases globals.hasInterrupt <;> exact silent _ fun _ member => member
  | executing process =>
      have here : process.Follows machine := follows process rfl
      simp only [Globals.executeInstruction, Option.bind_eq_bind, Option.bind_eq_some_iff] at proceeded
      obtain ⟨instruction, answer, ⟨cpuRegister, request⟩, cycle, result⟩ := proceeded
      cases result
      have advanced := here.advanced (sendable process rfl) answer cycle
      cases request with
      | none =>
          refine ⟨fun after member => ?_, [], rfl, by simp⟩
          obtain rfl := Option.some.inj member
          exact advanced (by simp)
      | some request =>
          refine ⟨by simp [Position.process?], [{ request := request, pcb := process }], rfl, ?_⟩
          intro message member
          obtain rfl := List.mem_singleton.mp member
          refine ⟨here, fun _ notFinish => ?_⟩
          rw [executeInstructionCycle_request cycle] at advanced
          exact advanced (by simpa using notFinish)

/-- The process that the next statement sends to memory. -/
def Position.fetching? : Position → Option Pcb
  | .executing process => some process
  | _ => none

namespace CpuSystem

variable {config : KernelConfig} {machine : Machine} {state next : CpuSystem}

/-- Every PCB: in `queue_new`, elsewhere in the kernel, in the messages to it, and on the CPU. -/
def pcbs (state : CpuSystem) : List Pcb :=
  state.system.kernel.queueNew ++ state.system.carried ++
    state.cpu.dispatchThread.position.process?.toList

/-- The PCB that the step sends to memory has C strings, and fits into a package. -/
def SendsToMemory (state : CpuSystem) : CpuSystemEvent → Prop
  | .dispatchThread _ =>
      ∀ process ∈ state.cpu.dispatchThread.position.fetching?, process.Sendable
  | _ => True

instance (state : CpuSystem) : ∀ event, Decidable (state.SendsToMemory event)
  | .dispatchThread _ =>
      inferInstanceAs
        (Decidable (∀ process ∈ state.cpu.dispatchThread.position.fetching?, process.Sendable))
  | .kernel _ | .interruptThread _ => isTrue trivial

/-- Every PCB is where its file has it. -/
structure Follows (machine : Machine) (state : CpuSystem) : Prop where
  system : state.system.Follows machine
  executing : ∀ process ∈ state.cpu.dispatchThread.position.process?, process.Follows machine

theorem Follows.init (machine : Machine) (config : KernelConfig) :
    (CpuSystem.init config).Follows machine where
  system := .init machine config
  executing := by simp [CpuSystem.init, Cpu.init, Position.process?]

theorem Follows.pcbs (follows : state.Follows machine) :
    ∀ process ∈ state.pcbs, process.Follows machine := by
  intro process member
  simp only [CpuSystem.pcbs, System.carried, List.mem_append, Option.mem_toList] at member
  rcases member with (inNew | inKernel | inMessages) | onCpu
  · exact follows.system.queueNew process inNew
  · exact follows.system.carried process inKernel
  · obtain ⟨message, sent, rfl⟩ := List.mem_map.mp inMessages
    exact (follows.system.messages message sent).pcb
  · exact follows.executing process onCpu

/-- A step of the kernel. -/
theorem Follows.kernelStep {event : Event} (follows : state.Follows machine)
    (shape : state.system.kernel.Shape config)
    (stepped : state.kernelStep config event = some next) : next.Follows machine := by
  obtain ⟨ofKernel, stepped⟩ := Option.ite_none_right_eq_some.mp stepped
  obtain ⟨after, taken, rfl⟩ := Option.map_eq_some_iff.mp stepped
  obtain ⟨cpu, -⟩ := foldl_countExecuteProcess_fields state
    (after.kernel.cpuDispatchConnection.drop state.system.kernel.cpuDispatchConnection.length)
  refine ⟨follows.system.kernelStep shape ofKernel taken, ?_⟩
  dsimp only
  rw [cpu]
  exact follows.executing

/-- The CPU takes a process from the connection. -/
theorem Follows.receiveDispatch (follows : state.Follows machine)
    (stepped : state.receiveDispatch machine = some next) : next.Follows machine := by
  rw [CpuSystem.receiveDispatch] at stepped
  split at stepped
  · cases stepped
  · next header pcb rest head =>
      obtain ⟨cpu, cpuStepped, rfl⟩ := Option.map_eq_some_iff.mp stepped
      obtain ⟨after, handler, taken, rfl⟩ := Cpu.step_dispatch cpuStepped
      obtain ⟨rfl, _, handled⟩ := receive_effect taken
      constructor
      · refine ⟨follows.system.queueNew, fun process member => ?_, follows.system.sleeping,
          follows.system.messages⟩
        refine follows.system.carried process ?_
        refine Kernel.carried_subset ?_ ?_ ?_ ?_ ?connection member
        case connection =>
          rw [head]
          exact List.subset_cons_self _ _
        all_goals exact List.Subset.refl _
      · intro process executing
        refine follows.system.carried process ?_
        have received : process = pcb := by
          cases header with
          | executeProcess | waitResponse | signalResponse =>
              have position := (Option.some.inj handled).symm
              dsimp only [Cpu.withDispatch] at executing
              rw [position] at executing
              exact (Option.some.inj executing).symm
          | _ =>
              have position := (Option.some.inj handled).symm
              dsimp only [Cpu.withDispatch] at executing
              rw [position] at executing
              cases executing
        simp only [Kernel.carried, head, List.map_cons, List.mem_append, List.mem_cons, received,
          true_or, or_true]

/-- A statement of the dispatch thread. -/
theorem Follows.proceedDispatch {stale : List UInt8} (follows : state.Follows machine)
    (nothingSent : state.cpu.globals.sent = [])
    (sends : state.SendsToMemory (.dispatchThread stale))
    (stepped : state.proceedDispatch machine stale = some next) : next.Follows machine := by
  obtain ⟨cpu, cpuStepped, rfl⟩ := Option.map_eq_some_iff.mp stepped
  obtain ⟨after, handler, taken, rfl⟩ := Cpu.step_dispatch cpuStepped
  obtain ⟨executing, messages, sent, about⟩ := Globals.proceed_follows follows.executing
    (fun process position => sends process (by rw [position]; rfl)) taken
  rw [nothingSent, List.nil_append] at sent
  refine ⟨?_, executing⟩
  dsimp only [Cpu.withDispatch]
  rw [recordDispatch_system, sent]
  refine ⟨follows.system.queueNew, fun process member => follows.system.carried process member,
    follows.system.sleeping, fun message member => ?_⟩
  rcases List.mem_append.mp member with old | new
  · exact follows.system.messages message old
  · exact about message new

/-- Every step keeps every PCB where its file has it. -/
theorem Follows.step {event : CpuSystemEvent} {unanswered : List (OperationCode × Pcb)}
    {hasInterrupt : Bool} (follows : state.Follows machine)
    (lags : state.Lags unanswered hasInterrupt) (shape : state.system.kernel.Shape config)
    (sends : state.SendsToMemory event)
    (stepped : state.step config machine event = some next) : next.Follows machine := by
  cases event with
  | kernel event => exact follows.kernelStep shape stepped
  | dispatchThread stale =>
      rw [CpuSystem.step] at stepped
      split at stepped
      · exact follows.receiveDispatch stepped
      · exact follows.proceedDispatch lags.sent sends stepped
  | interruptThread stale =>
      rw [CpuSystem.step] at stepped
      split at stepped
      · obtain ⟨_, stepped⟩ := Option.ite_none_right_eq_some.mp stepped
        obtain ⟨cpu, cpuStepped, rfl⟩ := Option.map_eq_some_iff.mp stepped
        obtain ⟨after, handler, taken, rfl⟩ := Cpu.step_interrupt cpuStepped
        exact ⟨⟨follows.system.queueNew, follows.system.carried, follows.system.sleeping,
          follows.system.messages⟩, follows.executing⟩
      · obtain ⟨cpu, cpuStepped, rfl⟩ := Option.map_eq_some_iff.mp stepped
        obtain ⟨after, handler, taken, rfl⟩ := Cpu.step_interrupt cpuStepped
        split
        · exact ⟨follows.system, follows.executing⟩
        · exact ⟨follows.system, follows.executing⟩

/-- A run that sends to memory only what can be sent, and whose sleep threads read their own arguments. -/
theorem follows_of_run {events : List (FramedEvent CpuSystemEvent)} {framed : Framed CpuSystem}
    (reaches : run (Framed.step (CpuSystem.step config machine)) (.start (CpuSystem.init config))
      events = some framed)
    (keeps : Meets (Framed.step (CpuSystem.step config machine))
      (fun framed event =>
        framed.ReadsOwnArguments event ∧ framed.During CpuSystem.SendsToMemory event)
      (.start (CpuSystem.init config)) events) :
    framed.inner.Follows machine := by
  let invariant := fun state : CpuSystem =>
    (∃ abstract : System, abstract.kernel.Shape config ∧ state.Refines abstract) ∧
      state.Follows machine
  have preserved : ∀ {current event next}, invariant current → current.SendsToMemory event →
      CpuSystem.step config machine current event = some next → invariant next := by
    rintro current event next ⟨⟨abstract, shape, refines⟩, follows⟩ allowed stepped
    obtain ⟨block, after, ran, refinesNext⟩ := refines.step stepped
    obtain ⟨unanswered, hasInterrupt, lags, rfl⟩ := refines
    refine ⟨⟨after, ?_, refinesNext⟩, follows.step lags ?_ allowed stepped⟩
    · exact invariant_of_run (fun system => system.kernel.Shape config)
        (fun shape taken => (System.step_cases taken).shape shape) shape ran
    · exact ⟨shape.allResources, shape.listOfQueueBlocked, shape.allResourcesInstances⟩
  have holds : invariant framed.inner :=
    invariant_of_guarded_run (fun framed : Framed CpuSystem => invariant framed.inner)
      (Framed.invariant_step preserved)
      ⟨⟨System.init config, .init config, .init config⟩, .init machine config⟩ keeps reaches
  exact holds.2

end CpuSystem

/-! ### Two processes that count -/

/-- A program that counts up, sleeps, and counts down again. -/
def countsFile : List UInt8 :=
  cBytes "SET AX 5\nSUM BX AX\nSLEEP 3\nSUB BX AX\nJNZ BX 1\nEXIT"

def countingMachine : Machine where
  memory :=
    { fopen := fun path => if path = "test/COUNTS" then some countsFile else none
      instructionPath := "test"
      stringNew := 24
      small := FileSystem.small_24 }
  stringSplit := splitAtSpaces

/-- The first process executes two instructions, the second of them when its quantum has expired, and then
    the second process executes one. -/
def countInTurns : List CpuSystemEvent :=
  [.kernel (.createProcess "COUNTS" 0 4), .kernel (.createProcess "COUNTS" 0 5),
    .kernel .startPlanning] ++
  List.replicate 6 (.kernel .longTermPlanner) ++ List.replicate 3 (.kernel .shortTermPlanner) ++
  List.replicate 5 (.dispatchThread []) ++ quantumExpires ++ List.replicate 5 (.dispatchThread []) ++
  .kernel .handleDispatch :: List.replicate 3 (.kernel .shortTermPlanner) ++
  List.replicate 5 (.dispatchThread [])

/-- The second process goes on until it sleeps. -/
def countOn : List CpuSystemEvent :=
  List.replicate 8 (.dispatchThread []) ++ [.kernel .handleDispatch]

/-- Its thread reads its arguments, takes it off `queue_exec`, and makes it ready again. -/
def countAndSleep : List (FramedEvent CpuSystemEvent) :=
  (countInTurns ++ countOn).map .inner ++
    [.readArguments 0, .reuseFrame none, .inner (.kernel (.sleepThread 0)),
      .inner (.kernel (.sleepThread 0))]

theorem countAndSleep_reaches :
    ∃ framed, run (Framed.step (CpuSystem.step roundRobinConfig countingMachine))
      (.start (CpuSystem.init roundRobinConfig)) countAndSleep = some framed ∧
      framed.inner.pcbs.map (fun process => (process.pid, process.programCounter)) =
        [(0, 2), (1, 3)] := by
  have reaches : (run (Framed.step (CpuSystem.step roundRobinConfig countingMachine))
      (.start (CpuSystem.init roundRobinConfig)) countAndSleep).map
        (·.inner.pcbs.map (fun process => (process.pid, process.programCounter))) =
      some [(0, 2), (1, 3)] := by
    decide +kernel
  exact Option.map_eq_some_iff.mp reaches

theorem countAndSleep_keeps :
    Meets (Framed.step (CpuSystem.step roundRobinConfig countingMachine))
      (fun framed event =>
        framed.ReadsOwnArguments event ∧ framed.During CpuSystem.SendsToMemory event)
      (.start (CpuSystem.init roundRobinConfig)) countAndSleep := by
  decide +kernel

/-- In every run in which what the CPU sends to memory can be sent, and a sleep thread reads its arguments
    while they are what `block_process` stored, every PCB anywhere has the registers, up to their high
    halves, that the lines of its file before its program counter leave when they are executed alone, each
    of them once and none of them an EXIT. -/
theorem cpu_run_follows_programs (config : KernelConfig) (machine : Machine)
    (events : List (FramedEvent CpuSystemEvent)) (framed : Framed CpuSystem)
    (reaches : run (Framed.step (CpuSystem.step config machine)) (.start (CpuSystem.init config))
      events = some framed)
    (keeps : Meets (Framed.step (CpuSystem.step config machine))
      (fun framed event =>
        framed.ReadsOwnArguments event ∧ framed.During CpuSystem.SendsToMemory event)
      (.start (CpuSystem.init config)) events) :
    ∀ process ∈ framed.inner.pcbs, 0 ≤ process.programCounter ∧ ∃ cpuRegister,
      machine.registersAfter process.path process.programCounter.toInt.toNat = some cpuRegister ∧
        process.cpuRegister.map lowHalf = cpuRegister.map lowHalf := by
  intro process member
  have follows := (CpuSystem.follows_of_run reaches keeps).pcbs process member
  exact ⟨follows.counts, follows.registers⟩

/-- The two processes are queued, one behind its second line, and one, which has slept, behind its third. -/
theorem cpu_run_follows_programs_counting :
    ∃ framed, run (Framed.step (CpuSystem.step roundRobinConfig countingMachine))
        (.start (CpuSystem.init roundRobinConfig)) countAndSleep = some framed ∧
      framed.inner.pcbs.map (fun process => (process.pid, process.programCounter)) =
        [(0, 2), (1, 3)] ∧
      ∀ process ∈ framed.inner.pcbs, 0 ≤ process.programCounter ∧ ∃ cpuRegister,
        countingMachine.registersAfter process.path process.programCounter.toInt.toNat =
          some cpuRegister ∧ process.cpuRegister.map lowHalf = cpuRegister.map lowHalf := by
  obtain ⟨framed, reaches, counters⟩ := countAndSleep_reaches
  exact ⟨framed, reaches, counters, cpu_run_follows_programs roundRobinConfig countingMachine
    countAndSleep framed reaches countAndSleep_keeps⟩

/-! ### Programs in instructions -/

namespace InstructionType

/-- Neither an instruction over the registers nor one without effect. -/
def asksOrAccesses : InstructionType → Bool
  | .set | .sum | .sub | .jnz | .noOp => false
  | _ => true

end InstructionType

/-- A line of a program: an instruction over the registers, or one that asks the kernel for something, or
    would access memory or a file. -/
inductive ProgramLine where
  | computes (instruction : RegisterInstruction)
  | asks (mnemonic : String) (operands : List String)
      (other : (translateInstruction mnemonic).asksOrAccesses = true)

namespace ProgramLine

/-- The parts of the line. -/
def tokens : ProgramLine → List String
  | .computes instruction => instruction.tokens
  | .asks mnemonic operands _ => mnemonic :: operands

/-- The line `EXIT`. -/
def exit : ProgramLine :=
  .asks "EXIT" [] (by simp [translateInstruction, InstructionType.asksOrAccesses])

/-- What the line does to the reference machine. -/
def step (reference : ReferenceState) : ProgramLine → ReferenceState
  | .computes instruction => reference.step instruction
  | .asks .. => { reference with programCounter := reference.programCounter + 1 }

end ProgramLine

/-- The reference machine when a process starts. -/
def ReferenceState.start : ReferenceState where
  registers := fun _ => 0
  programCounter := 0

/-- No JNZ of the program finds a register that is not zero. -/
def ProgramNeverJumps (program : List ProgramLine) : Prop :=
  ∀ before register operand, before ++ [.computes (.jnz register operand)] <+: program →
    (before.foldl ProgramLine.step .start).registers register = 0

/-- The file is written in these lines, each of which is a C string that fits the block of `string_new`. -/
structure WrittenAs (stringNew : Nat) (stringSplit : String → List String) (file : List UInt8)
    (program : List ProgramLine) : Prop where
  fits : FitsBlock stringNew file (lines newline file).length
  noNul : ∀ line ∈ lines newline file, 0 ∉ line
  short : (lines newline file).length < 2 ^ 31
  tokens : (lines newline file).map (fun line => stringSplit (ofCBytes line)) =
    program.map ProgramLine.tokens

section Program

variable {machine : Machine} {path : String} {file : List UInt8} {program : List ProgramLine}
  {stringSplit : String → List String} {cpuRegister after : List (BitVec 64)} {line : String}
  {request : Option CpuRequest}

/-- A line that asks or accesses leaves the registers alone. -/
theorem executeInstructionCycle_asks {mnemonic : String} {operands : List String}
    (other : (translateInstruction mnemonic).asksOrAccesses = true)
    (split : stringSplit line = mnemonic :: operands)
    (executed : executeInstructionCycle stringSplit cpuRegister line = some (after, request)) :
    after = cpuRegister := by
  simp only [executeInstructionCycle, split, List.getElem?_cons_zero, Option.bind_eq_bind,
    Option.bind_some] at executed
  cases kind : translateInstruction mnemonic <;>
    simp only [kind, Option.bind_eq_some_iff, Option.pure_def, Option.some.injEq, Prod.mk.injEq,
      InstructionType.asksOrAccesses, Bool.false_eq_true] at executed other
  case sleep | wait | signal =>
      obtain ⟨paramsOrder, _, text, _, same, _⟩ := executed
      exact same.symm
  case movIn | movOut =>
      obtain ⟨paramsOrder, _, same, _⟩ := executed
      exact same.symm
  all_goals exact executed.1.symm

/-- Each line of the file is fetched for its counter. -/
theorem WrittenAs.lineAt (written : WrittenAs machine.memory.stringNew machine.stringSplit file program)
    (found : machine.memory.instructionFile path = some file) {counter : Nat}
    (inside : counter < program.length) :
    ∃ line, machine.lineAt path counter = some line ∧
      machine.stringSplit line = program[counter].tokens := by
  have lengths : (lines newline file).length = program.length := by
    simpa using congrArg List.length written.tokens
  have insideFile : counter < (lines newline file).length := lengths ▸ inside
  have bound := written.short
  have nonempty : file ≠ [] := by
    rintro rfl
    exact absurd insideFile (Nat.not_lt_zero counter)
  have fits : FitsBlock machine.memory.stringNew file (counter + 1) := fun index below =>
    written.fits index (Nat.lt_of_lt_of_le below insideFile)
  obtain ⟨stored, read, fetched⟩ :=
    (readLines_eq machine.memory.small nonempty counter []).1 fits
  rw [List.getElem?_eq_getElem insideFile, Option.getD_some,
    beforeNul_eq_self_iff.mpr (written.noNul _ (List.getElem_mem insideFile))] at fetched
  have value : (Int32.ofNat counter).toInt = counter := Int32.toInt_ofNat_of_lt (by omega)
  have notLast : ¬ ((counter : Int) = 2 ^ 31 - 1) := by omega
  have turns : ((counter : Int) + 1).toNat = counter + 1 := by omega
  refine ⟨ofCBytes (stored.takeWhile (· ≠ newline)), ?_, ?_⟩
  · rw [Machine.lineAt, found, getInstructionFromFile]
    simp only [Option.bind_eq_bind, Option.bind_some, value, if_neg notLast, turns, read]
    rfl
  · have text : ofCBytes (stored.takeWhile (· ≠ newline)) = ofCBytes (fetchedText stored) := by
      rw [ofCBytes, ofCBytes, fetchedText, beforeNul, List.takeWhile_idem]
    have tokens := congrArg (·[counter]?) written.tokens
    simp only [List.getElem?_map, List.getElem?_eq_getElem insideFile, Option.map_some,
      List.getElem?_eq_getElem inside, Option.some.injEq] at tokens
    rw [text, fetched, tokens]

/-- The registers that a program leaves when it is executed alone are those of the reference machine. -/
theorem WrittenAs.represents (written : WrittenAs machine.memory.stringNew machine.stringSplit file program)
    (found : machine.memory.instructionFile path = some file) (never : ProgramNeverJumps program)
    {counter : Nat} (inside : counter ≤ program.length)
    (executed : machine.registersAfter path counter = some cpuRegister) :
    Represents cpuRegister
      ((program.take counter).foldl ProgramLine.step .start).registers := by
  induction counter generalizing cpuRegister with
  | zero =>
      obtain rfl := Option.some.inj executed
      exact ⟨Machine.start_narrow, rfl⟩
  | succ counter ih =>
      simp only [Machine.registersAfter, Option.bind_eq_bind, Option.bind_eq_some_iff] at executed
      obtain ⟨before, executedBefore, line, atCounter, ⟨after, request⟩, cycle, ends⟩ := executed
      obtain ⟨_, result⟩ := Option.ite_none_left_eq_some.mp ends
      obtain rfl := Option.some.inj result
      obtain ⟨same, there, split⟩ := written.lineAt found inside
      obtain rfl : same = line := by simpa [there] using atCounter
      have represents := ih (Nat.le_of_succ_le inside) executedBefore
      have taken : program.take (counter + 1) = program.take counter ++ [program[counter]] :=
        List.take_succ_eq_append_getElem inside
      have isPrefix : program.take counter ++ [program[counter]] <+: program := by
        rw [← taken]
        exact List.take_prefix _ _
      have stays : ∀ register operand, program[counter] = .computes (.jnz register operand) →
          ((program.take counter).foldl ProgramLine.step .start).registers register = 0 :=
        fun register operand jumps => never _ register operand (jumps ▸ isPrefix)
      rw [taken, List.foldl_concat]
      generalize (program.take counter).foldl ProgramLine.step .start = reference
        at represents stays
      cases reached : program[counter] with
      | asks mnemonic operands other =>
          rw [reached] at split
          obtain rfl := executeInstructionCycle_asks other split cycle
          exact represents
      | computes instruction =>
          rw [reached] at split stays
          have agrees : Agrees
              { createPcb 0 path 0 0 with
                cpuRegister := before
                programCounter := reference.programCounter } reference := ⟨represents, rfl⟩
          obtain ⟨process, ran, agreesAfter⟩ := agrees.step split fun register operand jumps =>
            stays register operand (congrArg ProgramLine.computes jumps)
          rw [executeLine, cycle] at ran
          obtain rfl := Option.some.inj ran
          exact agreesAfter.registers

/-- Nothing is executed behind the last line, which is an EXIT. -/
theorem WrittenAs.stops {body : List ProgramLine}
    (written : WrittenAs machine.memory.stringNew machine.stringSplit file (body ++ [.exit]))
    (found : machine.memory.instructionFile path = some file) {counter : Nat}
    (executed : machine.registersAfter path counter = some cpuRegister) :
    counter ≤ body.length := by
  by_contra behind
  have inside : body.length < (body ++ [ProgramLine.exit]).length := by simp
  obtain ⟨cells, exited⟩ := Machine.registersAfter_of_le executed (Nat.lt_of_not_le behind)
  simp only [Machine.registersAfter, Option.bind_eq_bind, Option.bind_eq_some_iff] at exited
  obtain ⟨before, _, line, atCounter, ⟨after, request⟩, cycle, ends⟩ := exited
  obtain ⟨same, there, split⟩ := written.lineAt found inside
  obtain rfl : same = line := by simpa [there] using atCounter
  have tokens : machine.stringSplit same = ["EXIT"] := by
    rw [split, List.getElem_concat_length rfl]
    rfl
  have mnemonic : translateInstruction "EXIT" = .exit := by simp [translateInstruction]
  simp only [executeInstructionCycle, tokens, List.getElem?_cons_zero, Option.bind_eq_bind,
    Option.bind_some, mnemonic, Option.pure_def, Option.some.injEq, Prod.mk.injEq] at cycle
  exact (Option.ite_none_left_eq_some.mp ends).1 cycle.2.symm

end Program

/-- The lines of the program before its last one. -/
def countingBody : List ProgramLine :=
  [.computes (.set .ax "5"), .computes (.sum .bx .ax),
    .asks "SLEEP" ["3"] (by simp [translateInstruction, InstructionType.asksOrAccesses]),
    .computes (.sub .bx .ax), .computes (.jnz .bx "1")]

theorem counting_written :
    WrittenAs countingMachine.memory.stringNew countingMachine.stringSplit countsFile
      (countingBody ++ [.exit]) := by
  have file : lines newline countsFile =
      [cBytes "SET AX 5", cBytes "SUM BX AX", cBytes "SLEEP 3", cBytes "SUB BX AX",
        cBytes "JNZ BX 1", cBytes "EXIT"] := by
    decide +kernel
  refine ⟨?_, ?_, ?_, ?_⟩
  · have noBreak : countsFile.getLast? = some 84 := by decide +kernel
    rw [FitsBlock, file, noBreak]
    decide +kernel
  · rw [file]
    decide +kernel
  · rw [file]
    decide
  · rw [file]
    decide +kernel

theorem counting_neverJumps : ProgramNeverJumps (countingBody ++ [.exit]) := by
  rintro before register operand ⟨rest, same⟩
  rcases before with _ | ⟨first, _ | ⟨second, _ | ⟨third, _ | ⟨fourth, _ | ⟨fifth, _ |
      ⟨sixth, before⟩⟩⟩⟩⟩⟩ <;>
    simp [countingBody, ProgramLine.exit] at same
  obtain ⟨rfl, rfl, rfl, rfl, ⟨rfl, rfl⟩, _⟩ := same
  decide +kernel

/-- In every run in which what the CPU sends to memory can be sent, and a sleep thread reads its arguments
    while they are what `block_process` stored: if a file is written in lines of which the last is an EXIT,
    and no JNZ of them finds a register that is not zero, then every PCB that executes the file is at one of
    its lines, with the registers that the reference machine has there. -/
theorem cpu_run_computes_as_written (config : KernelConfig) (machine : Machine)
    (events : List (FramedEvent CpuSystemEvent)) (framed : Framed CpuSystem)
    (reaches : run (Framed.step (CpuSystem.step config machine)) (.start (CpuSystem.init config))
      events = some framed)
    (keeps : Meets (Framed.step (CpuSystem.step config machine))
      (fun framed event =>
        framed.ReadsOwnArguments event ∧ framed.During CpuSystem.SendsToMemory event)
      (.start (CpuSystem.init config)) events)
    (path : String) (file : List UInt8) (body : List ProgramLine)
    (found : machine.memory.instructionFile path = some file)
    (written : WrittenAs machine.memory.stringNew machine.stringSplit file (body ++ [.exit]))
    (never : ProgramNeverJumps (body ++ [.exit])) :
    ∀ process ∈ framed.inner.pcbs, process.path = path →
      ∃ counter ≤ body.length, process.programCounter = .ofNat counter ∧
        process.cpuRegister.map (BitVec.truncate 32) = [.ax, .bx, .cx, .dx].map fun register =>
          (((body.take counter).foldl ProgramLine.step .start).registers register).toBitVec := by
  rintro process member rfl
  obtain ⟨counts, ⟨cells, executed, same⟩, _⟩ :=
    (CpuSystem.follows_of_run reaches keeps).pcbs process member
  have stops := written.stops found executed
  refine ⟨_, stops, (ofNat_counter counts).symm, ?_⟩
  have represents := written.represents found never
    (stops.trans (by rw [List.length_append]; exact Nat.le_add_right _ _)) executed
  rw [List.take_append_of_le_length stops] at represents
  have low : process.cpuRegister.map (BitVec.truncate 32) = cells.map (BitVec.truncate 32) := by
    have halves := congrArg (List.map (BitVec.truncate 32)) same
    simpa [lowHalf, Function.comp_def] using halves
  exact low.trans represents.values

theorem cpu_run_computes_as_written_counting :
    ∃ framed, run (Framed.step (CpuSystem.step roundRobinConfig countingMachine))
        (.start (CpuSystem.init roundRobinConfig)) countAndSleep = some framed ∧
      framed.inner.pcbs.map (fun process => (process.pid, process.programCounter)) =
        [(0, 2), (1, 3)] ∧
      ∀ process ∈ framed.inner.pcbs, process.path = "COUNTS" →
        ∃ counter ≤ countingBody.length, process.programCounter = .ofNat counter ∧
          process.cpuRegister.map (BitVec.truncate 32) = [.ax, .bx, .cx, .dx].map fun register =>
            (((countingBody.take counter).foldl ProgramLine.step .start).registers
              register).toBitVec := by
  obtain ⟨framed, reaches, counters⟩ := countAndSleep_reaches
  exact ⟨framed, reaches, counters, cpu_run_computes_as_written roundRobinConfig countingMachine
    countAndSleep framed reaches countAndSleep_keeps "COUNTS" _ countingBody rfl counting_written
    counting_neverJumps⟩

end OsSimulator
