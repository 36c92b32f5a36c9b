/-
Module: OsSimulator.Kernel.Resources
Purpose: The resource lists of `deadlocks.c`: reading and changing the available instances, the
  release of what a PCB retains, and the deadlock check made when a process blocks.
Main exports: findProcessFromQueue, Kernel.available, Kernel.modifyResourceInstance,
  Kernel.freeResourcesRetained, Kernel.getQueueBlocked, Kernel.checkDeadlocks
-/
import OsSimulator.Kernel.State

namespace OsSimulator

/-- `find_process_from_queue`: the first element with that pid. -/
def findProcessFromQueue (queue : List Pcb) (pid : UInt32) : Option Pcb :=
  queue.find? (·.pid == pid)

/-- `find_resource`: the first string that `strcmp` finds equal. -/
def findResource (list : List String) (resourceRequested : String) : Option String :=
  list.find? (· == resourceRequested)

/-- `quantity_resource_instance_retained`. -/
def quantityResourceInstanceRetained (process : Pcb) (resource : String) : Nat :=
  process.resources.count resource

namespace Kernel

/-- The first index of `all_resources` that holds the name. -/
def resourceIndex (kernel : Kernel) (resource : String) : Option Nat :=
  kernel.allResources.findIdx? (· == resource)

/-- `quantity_resource_instance_available`.  For a name that is not in `all_resources` the source
    runs off the end of the function; its callers have checked the name. -/
def quantityResourceInstanceAvailable (kernel : Kernel) (resource : String) : Int :=
  match kernel.resourceIndex resource with
  | some index => kernel.allResourcesInstances.getD index 0
  | none => 0

/-- `_modify_resource_instance`: only the first entry with that name changes. -/
def modifyResourceInstance (resourceToModify : String) (valueToModify : Int) (kernel : Kernel) :
    Kernel :=
  match kernel.resourceIndex resourceToModify with
  | some index =>
      { kernel with
        allResourcesInstances :=
          kernel.allResourcesInstances.modify index (· + valueToModify) }
  | none => kernel

/-- `add_resource_instance`. -/
def addResourceInstance (resource : String) (kernel : Kernel) : Kernel :=
  kernel.modifyResourceInstance resource 1

/-- `remove_resource_instance`. -/
def removeResourceInstance (resource : String) (kernel : Kernel) : Kernel :=
  kernel.modifyResourceInstance resource (-1)

/-- The loop of `free_resources_retained` over a list of names. -/
def addResourceInstances (resources : List String) (kernel : Kernel) : Kernel :=
  resources.foldl (fun kernel resource => kernel.addResourceInstance resource) kernel

/-- `free_resources_retained`. -/
def freeResourcesRetained (process : Pcb) (kernel : Kernel) : Kernel :=
  kernel.addResourceInstances process.resources

/-- `get_queue_blocked`: the last index whose name matches.  When none does the source returns a
    queue it has just created, which is in no list: the index past the end. -/
def getQueueBlocked (kernel : Kernel) (queueTag : String) : Nat :=
  (((List.range kernel.listOfQueueBlocked.length).filter fun index =>
    kernel.allResources[index]? == some queueTag).getLast?).getD kernel.listOfQueueBlocked.length

/-- `get_required_resource`: the name of the first blocked queue that holds the pid. -/
def getRequiredResource (kernel : Kernel) (processToCheck : Pcb) : Option String :=
  ((List.range kernel.listOfQueueBlocked.length).find? fun index =>
    (findProcessFromQueue (kernel.queue (.blocked index)) processToCheck.pid).isSome).bind
      fun index => kernel.allResources[index]?

/-- `log_deadlock`. -/
def logDeadlock (processToCheck : Pcb) (kernel : Kernel) : Kernel :=
  kernel.log (.deadlock processToCheck.pid processToCheck.resources
    (kernel.getRequiredResource processToCheck))

/-- One turn of the inner loop of `check_deadlocks`. -/
def evaluateDeadlock (processToCheck processToEvaluate : Pcb)
    (requiredResourceToCheck : Option String) (kernel : Kernel) : Kernel :=
  match requiredResourceToCheck with
  | some required =>
      if (findResource processToEvaluate.resources required).isSome then
        (kernel.logDeadlock processToCheck).logDeadlock processToEvaluate
      else
        kernel
  | none => kernel

/-- `check_deadlocks`: one look at every blocked process, in every blocked queue. -/
def checkDeadlocks (processToCheck : Pcb) (kernel : Kernel) : Kernel :=
  kernel.listOfQueueBlocked.flatten.foldl
    (fun current processToEvaluate =>
      current.evaluateDeadlock processToCheck processToEvaluate
        (kernel.getRequiredResource processToCheck))
    kernel

end Kernel

end OsSimulator
