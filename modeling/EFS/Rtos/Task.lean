import Mathlib.Tactic

/-!
# Tasks of the RTOS scheduler

The task control block and the operations of `rtos::Task` on it.  The functions of tasks are
left abstract: `Fn` is the type of the callables handed to `createTask`, and
`TaskFunction Fn` adds the built-in loop of the idle task.
-/

namespace EFS

namespace Rtos

/-- `TaskId` is a 32-bit number; `0` is the idle task. -/
abbrev TaskId := UInt32

/-- The states of a task. -/
inductive TaskState where
  | ready
  | running
  | blocked
  | suspended
  | terminated
  deriving DecidableEq, Repr

/-- What a task executes. -/
inductive TaskFunction (Fn : Type) where
  /-- The empty low-power loop of the idle task. -/
  | idleLoop
  /-- A callable passed to `createTask`. -/
  | user (f : Fn)
  deriving DecidableEq, Repr

/-- The task control block, which is all that a `Task` holds. -/
structure Task (Fn : Type) where
  id : TaskId
  name : String
  /-- `none` is an empty `std::function`. -/
  function : Option (TaskFunction Fn)
  priority : UInt8
  state : TaskState
  delayUntilTick : UInt64
  stackSize : UInt64
  executionCount : UInt64

namespace Task

variable {Fn : Type}

/-- The constructor: a new task is ready and was never delayed or executed. -/
def new (id : TaskId) (name : String) (function : Option (TaskFunction Fn)) (priority : UInt8)
    (stackSize : UInt64) : Task Fn where
  id := id
  name := name
  function := function
  priority := priority
  state := .ready
  delayUntilTick := 0
  stackSize := stackSize
  executionCount := 0

/-- `setState()`. -/
def setState (t : Task Fn) (state : TaskState) : Task Fn := { t with state }

/-- `setDelayUntilTick()`. -/
def setDelayUntilTick (t : Task Fn) (tick : UInt64) : Task Fn := { t with delayUntilTick := tick }

/-- The block as `execute` leaves it when it calls the function, and the function it calls. -/
def execute (t : Task Fn) : Task Fn × Option (TaskFunction Fn) :=
  match t.function with
  | some f => ({ t with executionCount := t.executionCount + 1 }, some f)
  | none => (t, none)

/-- The task may be given the processor. -/
def Runnable (t : Task Fn) : Prop := t.state = .ready ∨ t.state = .running

instance (t : Task Fn) : Decidable t.Runnable := inferInstanceAs (Decidable (_ ∨ _))

section

variable (t : Task Fn) (st : TaskState) (n : UInt64)

@[simp] theorem new_state (id : TaskId) (name : String) (f : Option (TaskFunction Fn))
    (p : UInt8) : (new id name f p n).state = .ready := rfl

@[simp] theorem setState_id : (t.setState st).id = t.id := rfl
@[simp] theorem setState_function : (t.setState st).function = t.function := rfl
@[simp] theorem setState_priority : (t.setState st).priority = t.priority := rfl
@[simp] theorem setState_state : (t.setState st).state = st := rfl
@[simp] theorem setState_delayUntilTick : (t.setState st).delayUntilTick = t.delayUntilTick := rfl

@[simp] theorem setDelayUntilTick_id : (t.setDelayUntilTick n).id = t.id := rfl
@[simp] theorem setDelayUntilTick_function : (t.setDelayUntilTick n).function = t.function := rfl
@[simp] theorem setDelayUntilTick_priority : (t.setDelayUntilTick n).priority = t.priority := rfl
@[simp] theorem setDelayUntilTick_state : (t.setDelayUntilTick n).state = t.state := rfl
@[simp] theorem setDelayUntilTick_delayUntilTick :
    (t.setDelayUntilTick n).delayUntilTick = n := rfl

@[simp] theorem execute_id : t.execute.1.id = t.id := by unfold execute; split <;> rfl
@[simp] theorem execute_function : t.execute.1.function = t.function := by
  unfold execute; split <;> rfl
@[simp] theorem execute_priority : t.execute.1.priority = t.priority := by
  unfold execute; split <;> rfl
@[simp] theorem execute_state : t.execute.1.state = t.state := by unfold execute; split <;> rfl
@[simp] theorem execute_delayUntilTick : t.execute.1.delayUntilTick = t.delayUntilTick := by
  unfold execute; split <;> rfl
@[simp] theorem execute_snd : t.execute.2 = t.function := by
  unfold execute; split <;> simp_all

end

end Task

end Rtos

end EFS
