/-
Module: OsSimulator.Lib.WaitFor
Purpose: Wait-for graphs: processes that are blocked on resources and retain resources.  When one
  more process blocks, the cycles through it are the chains of the older graph that lead back to it.
Main exports: WaitFor.WaitsFor, WaitFor.CircularWait, WaitFor.LeadsTo, WaitFor.Joins,
  WaitFor.not_circularWait_of_rank, WaitFor.Joins.circularWait_iff
-/
import Mathlib.Logic.Relation
import Mathlib.Order.Basic

namespace WaitFor

open Relation

variable {Process Resource : Type}

section Graph

variable (blockedOn retains : Process → Resource → Prop)

/-- The one is blocked on a resource that the other one retains. -/
def WaitsFor (one other : Process) : Prop :=
  ∃ resource, blockedOn one resource ∧ retains other resource

/-- A chain of one or more waits leads from the process back to it. -/
def CircularWait (process : Process) : Prop :=
  TransGen (WaitsFor blockedOn retains) process process

/-- A chain of waits leads from the process to one that is blocked on a resource in `held`. -/
def LeadsTo (held : Resource → Prop) (process : Process) : Prop :=
  ∃ last resource, ReflTransGen (WaitsFor blockedOn retains) process last ∧
    blockedOn last resource ∧ held resource

end Graph

variable {blockedOn retains blockedOn' retains' : Process → Resource → Prop} {process : Process}

/-- A process that retains nothing is waited for by nobody. -/
theorem not_circularWait_of_retains_nothing (nothing : ∀ resource, ¬ retains process resource) :
    ¬ CircularWait blockedOn retains process := by
  intro circular
  obtain ⟨last, _, resource, _, retained⟩ := TransGen.tail'_iff.mp circular
  exact nothing resource retained

/-- Where the processes are blocked only on resources that rank above all they retain, nothing waits in
    a circle. -/
theorem not_circularWait_of_rank {Rank : Type} [Preorder Rank] (rank : Resource → Rank)
    (higher : ∀ process wanted held, blockedOn process wanted → retains process held →
      rank held < rank wanted) : ¬ CircularWait blockedOn retains process := by
  have rises : ∀ {one other}, TransGen (WaitsFor blockedOn retains) one other →
      ∃ wanted held, blockedOn one wanted ∧ retains other held ∧ rank wanted ≤ rank held := by
    intro one other chain
    induction chain with
    | single waits =>
        obtain ⟨resource, blocked, retained⟩ := waits
        exact ⟨resource, resource, blocked, retained, le_refl _⟩
    | tail _ waits ih =>
        obtain ⟨wanted, held, blocked, retained, below⟩ := ih
        obtain ⟨resource, blockedNext, retainedNext⟩ := waits
        have above := higher _ resource held blockedNext retained
        exact ⟨wanted, resource, blocked, retainedNext, below.trans above.le⟩
  intro circular
  obtain ⟨wanted, held, blocked, retained, below⟩ := rises circular
  exact (below.trans_lt (higher process wanted held blocked retained)).false

theorem LeadsTo.head {held : Resource → Prop} {one other : Process}
    (waits : WaitsFor blockedOn retains one other) (leads : LeadsTo blockedOn retains held other) :
    LeadsTo blockedOn retains held one := by
  obtain ⟨last, resource, chain, blocked, isHeld⟩ := leads
  exact ⟨last, resource, .head waits chain, blocked, isHeld⟩

/-- The primed graph is the other one after `process` has joined it: nothing is lost, and only what
    `process` is blocked on and what it retains can be new. -/
structure Joins (process : Process)
    (blockedOn retains blockedOn' retains' : Process → Resource → Prop) : Prop where
  staysBlocked : ∀ {other resource}, blockedOn other resource → blockedOn' other resource
  staysRetained : ∀ {other resource}, retains other resource → retains' other resource
  wasBlocked : ∀ {other resource}, other ≠ process → blockedOn' other resource →
    blockedOn other resource
  wasRetained : ∀ {other resource}, other ≠ process → retains' other resource →
    retains other resource

namespace Joins

variable (joins : Joins process blockedOn retains blockedOn' retains')

include joins

theorem waitsFor {one other : Process} (waits : WaitsFor blockedOn retains one other) :
    WaitsFor blockedOn' retains' one other := by
  obtain ⟨resource, blocked, retained⟩ := waits
  exact ⟨resource, joins.staysBlocked blocked, joins.staysRetained retained⟩

/-- A chain that arrives at `process` runs through the older graph up to its last wait. -/
theorem leadsTo_of_chain {other : Process}
    (chain : ReflTransGen (WaitsFor blockedOn' retains') other process) (another : other ≠ process) :
    LeadsTo blockedOn retains (retains' process) other := by
  induction chain using ReflTransGen.head_induction_on with
  | refl => exact absurd rfl another
  | @head one next waits _ ih =>
      obtain ⟨resource, blocked, retained⟩ := waits
      have wasBlocked := joins.wasBlocked another blocked
      by_cases arrived : next = process
      · subst arrived
        exact ⟨one, resource, .refl, wasBlocked, retained⟩
      · have older : WaitsFor blockedOn retains one next :=
          ⟨resource, wasBlocked, joins.wasRetained arrived retained⟩
        exact (ih arrived).head older

theorem chain_of_leadsTo {other : Process}
    (leads : LeadsTo blockedOn retains (retains' process) other) :
    TransGen (WaitsFor blockedOn' retains') other process := by
  obtain ⟨last, resource, chain, blocked, retained⟩ := leads
  have older : ReflTransGen (WaitsFor blockedOn' retains') other last :=
    ReflTransGen.mono (fun _ _ => joins.waitsFor) _ _ chain
  exact .tail' older ⟨resource, joins.staysBlocked blocked, retained⟩

/-- The process is in a circular wait when it retains a resource that it is blocked on, or when one
    that retains such a resource already waits, through others or not, for what it retains. -/
theorem circularWait_iff :
    CircularWait blockedOn' retains' process ↔
      ∃ resource, blockedOn' process resource ∧ (retains' process resource ∨
        ∃ other, retains other resource ∧
          LeadsTo blockedOn retains (retains' process) other) := by
  constructor
  · intro circular
    obtain ⟨next, ⟨resource, blocked, retained⟩, chain⟩ := TransGen.head'_iff.mp circular
    refine ⟨resource, blocked, ?_⟩
    by_cases itself : next = process
    · subst itself
      exact .inl retained
    · exact .inr ⟨next, joins.wasRetained itself retained, joins.leadsTo_of_chain chain itself⟩
  · rintro ⟨resource, blocked, itself | ⟨other, retained, leads⟩⟩
    · exact .single ⟨resource, blocked, itself⟩
    · exact .head ⟨resource, blocked, joins.staysRetained retained⟩ (joins.chain_of_leadsTo leads)

end Joins

end WaitFor
