import OsSimulator.Lib.Transition
import OsSimulator.Lib.Weigh
import OsSimulator.Lib.Ledger
import OsSimulator.Lib.Threads
import OsSimulator.Lib.Locks
import OsSimulator.Lib.Budgets
import OsSimulator.Lib.Relies
import OsSimulator.Kernel.System
import OsSimulator.Kernel.ThreadArguments
import OsSimulator.Concurrent.World
import OsSimulator.Concurrent.ConnectedWorld
import OsSimulator.Concurrent.FramedWorld
import OsSimulator.Proofs.Queues
import OsSimulator.Kernel.Serial
import OsSimulator.Proofs.History
import OsSimulator.Proofs.Handlers
import OsSimulator.Proofs.States
import OsSimulator.Proofs.Accounting
import OsSimulator.Proofs.Steps
import OsSimulator.Proofs.CpuExclusivity
import OsSimulator.Proofs.WakeUp
import OsSimulator.Proofs.Multiprogramming
import OsSimulator.Proofs.Finality
import OsSimulator.Proofs.Conservation
import OsSimulator.Proofs.Tokens
import OsSimulator.Proofs.Context
import OsSimulator.Proofs.Places
import OsSimulator.Proofs.Interleavings
import OsSimulator.Proofs.Loops
import OsSimulator.Proofs.Quiet
import OsSimulator.Proofs.Planning
import OsSimulator.Proofs.QueueTokens
import OsSimulator.Proofs.Grants
import OsSimulator.Proofs.CpuTurns
import OsSimulator.Proofs.Slots
import OsSimulator.Proofs.Provenance
import OsSimulator.Proofs.LastCopy
import OsSimulator.Proofs.StartStop
import OsSimulator.Proofs.RoundTrip
import OsSimulator.Proofs.Framing
import OsSimulator.Proofs.MemoryStream
import OsSimulator.Proofs.Received
import OsSimulator.Proofs.Preemption
import OsSimulator.Proofs.InterruptLock
import OsSimulator.Proofs.QuantumInterrupts
import OsSimulator.Proofs.Deadlocks
import OsSimulator.Proofs.Frames
import OsSimulator.Proofs.ClosedConnections
import OsSimulator.Proofs.ReceiveErrors
import OsSimulator.Proofs.MainMemory
import OsSimulator.Proofs.WakeOrder
import OsSimulator.Proofs.Replacement
import OsSimulator.Proofs.InstructionLines
import OsSimulator.Proofs.ResourceNames
import OsSimulator.Proofs.Answers
import OsSimulator.Proofs.LockOrder
import OsSimulator.Proofs.RecencyOrder
import OsSimulator.Proofs.FrameRelease
import OsSimulator.Proofs.SwapMessages
import OsSimulator.Proofs.BufferGrowth
import OsSimulator.Proofs.InstructionFetch
import OsSimulator.Proofs.Scripts
import OsSimulator.Proofs.SwapSpace
import OsSimulator.Proofs.Teardown
import OsSimulator.Lib.Sequential
import OsSimulator.Proofs.Snapshots
import OsSimulator.Proofs.Atomicity
import OsSimulator.Proofs.AtomicRuns
import OsSimulator.Proofs.CpuRefinement
import OsSimulator.Lib.Fifo
import OsSimulator.Proofs.Turns
import OsSimulator.Proofs.Counters
import OsSimulator.Proofs.Standstill
import OsSimulator.Proofs.WaitingLines
import OsSimulator.Proofs.WireRefinement
import OsSimulator.Proofs.Quanta
import OsSimulator.Proofs.Programs
import OsSimulator.Proofs.LastingDeadlocks
