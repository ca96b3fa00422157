import EFS.Data.OrderedMap
import EFS.LTS.Reentrant
import EFS.Rtos.Task
import Mathlib.Data.List.AList

/-!
# The RTOS scheduler

The state and the operations of `rtos::Scheduler`, function by function.

* `m_tasks` maps ids to owning pointers: a value `none` is a null pointer, which
  `m_tasks[id]` inserts when `id` is absent.  `Scheduler.task?` is the task behind a key.
* `m_readyQueue` is an ordered map from priorities to vectors of ids, visited from the highest
  priority down; `m_delayQueue` is a vector of ids.
* An operation that ends in `schedule()` may enter the function of a task before it returns;
  nothing is left to do when that function returns.  Such an operation is an `Outcome` whose
  frame, an `Execution`, names the task and the function that is running.

`Scheduler.perform` runs one of the public operations, named by a `Call`.
-/

namespace EFS

namespace Rtos

/-- The priority of the idle task, the lowest one. -/
def idleTaskPriority : UInt8 := 0

/-- The id of the idle task. -/
def idleTaskId : TaskId := 0

instance higherPriority : IsStrictTotalOrder UInt8 (· > ·) where
  trichotomous _ _ hab hba := UInt8.le_antisymm (UInt8.not_lt.1 hab) (UInt8.not_lt.1 hba)
  irrefl a := UInt8.lt_irrefl a
  trans _ _ _ h h' := UInt8.lt_trans h' h

/-- The frame left by an operation that executes a task: the task and its function. -/
structure Execution (Fn : Type) where
  task : TaskId
  function : TaskFunction Fn

/-- The state of the scheduler. -/
structure Scheduler (Fn : Type) where
  running : Bool
  tickCount : UInt64
  nextTaskId : TaskId
  currentTaskId : TaskId
  tasks : AList fun _ : TaskId => Option (Task Fn)
  readyQueue : OrderedMap UInt8 (List TaskId) (· > ·)
  delayQueue : List TaskId

namespace Scheduler

variable {Fn : Type} (s : Scheduler Fn)

/-! ### Access to the containers -/

/-- The task that `m_tasks` holds for `id`. -/
def task? (id : TaskId) : Option (Task Fn) := (s.tasks.lookup id).join

/-- Writes the task behind the key `id`. -/
def setTask (id : TaskId) (t : Task Fn) : Scheduler Fn :=
  { s with tasks := s.tasks.insert id (some t) }

/-- `m_tasks[id]` : inserts a null pointer if the key is absent. -/
def subscript (id : TaskId) : Scheduler Fn :=
  if id ∈ s.tasks then s else { s with tasks := s.tasks.insert id none }

/-- The vector that `m_readyQueue` holds for a priority, empty if there is none. -/
def readyVec (priority : UInt8) : List TaskId := (s.readyQueue.find? priority).getD []

/-- `getTask(id)`. -/
def getTask (id : TaskId) : Option (Task Fn) := s.task? id

/-- `taskCount()`. -/
def taskCount : ℕ := s.tasks.entries.length

/-! ### Queues -/

/-- `addToReadyQueue` : appends `id` to the vector of its priority, unless it is there. -/
def addToReadyQueue (id : TaskId) : Scheduler Fn :=
  match s.task? id with
  | none => s
  | some task =>
    let vec := s.readyVec task.priority
    { s with readyQueue :=
        s.readyQueue.insert task.priority (if id ∈ vec then vec else vec ++ [id]) }

/-- `removeFromReadyQueue` : a vector that becomes empty is removed from the map. -/
def removeFromReadyQueue (id : TaskId) : Scheduler Fn :=
  match s.task? id with
  | none => s
  | some task =>
    match s.readyQueue.find? task.priority with
    | none => s
    | some vec =>
      if vec.erase id = [] then { s with readyQueue := s.readyQueue.erase task.priority }
      else { s with readyQueue := s.readyQueue.insert task.priority (vec.erase id) }

/-- The loop of `processDelayQueue` over the ids not yet visited: the state it leaves and the
ids it keeps. -/
def wake : Scheduler Fn → List TaskId → Scheduler Fn × List TaskId
  | s, [] => (s, [])
  | s, id :: rest =>
    match s.task? id with
    | some task =>
      if task.delayUntilTick ≤ s.tickCount then
        wake ((s.setTask id (task.setState .ready)).addToReadyQueue id) rest
      else
        let visited := wake s rest
        (visited.1, id :: visited.2)
    | none =>
      let visited := wake s rest
      (visited.1, id :: visited.2)

/-- `processDelayQueue` : delayed tasks whose tick has come become ready. -/
def processDelayQueue : Scheduler Fn :=
  { (s.wake s.delayQueue).1 with delayQueue := (s.wake s.delayQueue).2 }

/-- `pickNextTask` : the front of the first non-empty vector, which moves to the back of it. -/
def pickNextTask : Scheduler Fn × TaskId :=
  match s.readyQueue.entries.find? fun e => e.2 ≠ [] with
  | some (priority, id :: rest) =>
    if rest ≠ [] then
      ({ s with readyQueue := s.readyQueue.insert priority (rest ++ [id]) }, id)
    else (s, id)
  -- no vector has anybody in it
  | _ => (s, idleTaskId)

/-! ### Scheduling -/

/-- The part of `schedule` that takes the processor from the current task. -/
def preempt (nextId : TaskId) : Scheduler Fn :=
  if s.currentTaskId ≠ nextId ∧ s.currentTaskId ∈ s.tasks then
    match s.task? s.currentTaskId with
    | some current =>
      -- a task that has blocked or suspended itself keeps its state
      if current.state = .running then s.setTask s.currentTaskId (current.setState .ready) else s
    | none => s
  else s

/-- The part of `schedule` that gives the processor to the task `nextId` and executes it. -/
def dispatch (nextId : TaskId) : Outcome (Scheduler Fn) (Execution Fn) :=
  match (s.subscript nextId).task? nextId with
  | some nextTask =>
    if nextTask.Runnable then
      let executed := (nextTask.setState .running).execute
      match executed.2 with
      | some f => .entered ((s.subscript nextId).setTask nextId executed.1) ⟨nextId, f⟩
      | none => .returned ((s.subscript nextId).setTask nextId executed.1)
    else .returned (s.subscript nextId)
  | none => .returned (s.subscript nextId)

/-- `schedule()`. -/
def schedule : Outcome (Scheduler Fn) (Execution Fn) :=
  if s.running then
    let picked := s.processDelayQueue.pickNextTask
    dispatch { picked.1.preempt picked.2 with currentTaskId := picked.2 } picked.2
  else .returned s

/-- The part of `yield` before it calls `schedule`: the running task goes to the back of its
vector. -/
def requeueCurrent : Scheduler Fn :=
  if s.currentTaskId ≠ idleTaskId ∧ s.currentTaskId ∈ s.tasks then
    match s.task? s.currentTaskId with
    | some current =>
      if current.state = .running then
        ((s.setTask s.currentTaskId (current.setState .ready)).removeFromReadyQueue
          s.currentTaskId).addToReadyQueue s.currentTaskId
      else s
    | none => s
  else s

/-- `yield()`. -/
def yield : Outcome (Scheduler Fn) (Execution Fn) :=
  if s.running then s.requeueCurrent.schedule else .returned s

/-- The part of `delay` before it calls `schedule`: the current task moves to the delay queue.
The deadline is a 64-bit sum. -/
def blockCurrent (ticks : UInt64) : Scheduler Fn :=
  match s.task? s.currentTaskId with
  | some task =>
    let s' := (s.setTask s.currentTaskId
      ((task.setState .blocked).setDelayUntilTick (s.tickCount + ticks))).removeFromReadyQueue
        s.currentTaskId
    { s' with delayQueue := s'.delayQueue ++ [s.currentTaskId] }
  | none => s

/-- `delay(ticks)`. -/
def delay (ticks : UInt64) : Outcome (Scheduler Fn) (Execution Fn) :=
  if ¬ s.running ∨ s.currentTaskId = idleTaskId then .returned s
  else (s.blockCurrent ticks).schedule

/-- `tick()`. -/
def tick : Scheduler Fn := { s with tickCount := s.tickCount + 1 }.processDelayQueue

/-! ### Task management -/

/-- `ensureIdleTask`. -/
def ensureIdleTask : Scheduler Fn :=
  if idleTaskId ∈ s.tasks then s
  else (s.setTask idleTaskId (.new idleTaskId "IdleTask" (some .idleLoop) idleTaskPriority
    512)).addToReadyQueue idleTaskId

/-- The state of a new scheduler. -/
def init : Scheduler Fn :=
  ensureIdleTask
    { running := false, tickCount := 0, nextTaskId := 1, currentTaskId := idleTaskId,
      tasks := ∅, readyQueue := .empty, delayQueue := [] }

/-- `createTask` : a null function is refused, otherwise the next id is used. -/
def createTask (name : String) (function : Option (TaskFunction Fn)) (priority : UInt8)
    (stackSize : UInt64) : Except String (TaskId × Scheduler Fn) :=
  match function with
  | none => .error "Task function cannot be null"
  | some f =>
    let id := s.nextTaskId
    .ok (id, ({ s with nextTaskId := s.nextTaskId + 1 }.setTask id
      (.new id name (some f) priority stackSize)).addToReadyQueue id)

/-- The part of `deleteTask` that takes an existing task out of all containers. -/
def removeTask (id : TaskId) : Scheduler Fn :=
  let s' := s.removeFromReadyQueue id
  { s' with delayQueue := s'.delayQueue.erase id, tasks := s'.tasks.erase id }

/-- `deleteTask` : the idle task and unknown ids are refused; deleting the current task
schedules another. -/
def deleteTask (id : TaskId) : Bool × Outcome (Scheduler Fn) (Execution Fn) :=
  if id = idleTaskId then (false, .returned s)
  else if s.task? id = none then (false, .returned s)
  else if s.currentTaskId = id then
    -- `schedule` finds the idle task as the current one
    (true, { s.removeTask id with currentTaskId := idleTaskId }.schedule)
  else (true, .returned (s.removeTask id))

/-- `start()`. -/
def start : Scheduler Fn := { s.ensureIdleTask with running := true }

/-- `stop()`. -/
def stop : Scheduler Fn := { s with running := false }

/-- The part of `suspendTask` that takes an existing task out of the queues. -/
def parkTask (id : TaskId) (task : Task Fn) : Scheduler Fn :=
  let s' := (s.setTask id (task.setState .suspended)).removeFromReadyQueue id
  { s' with delayQueue := s'.delayQueue.erase id }

/-- `suspendTask` : suspending the current task schedules another. -/
def suspendTask (id : TaskId) : Bool × Outcome (Scheduler Fn) (Execution Fn) :=
  match s.task? id with
  | none => (false, .returned s)
  | some task =>
    if id = (s.parkTask id task).currentTaskId ∧ (s.parkTask id task).running then
      (true, (s.parkTask id task).schedule)
    else (true, .returned (s.parkTask id task))

/-- `resumeTask` : only a suspended task is resumed. -/
def resumeTask (id : TaskId) : Bool × Scheduler Fn :=
  match s.task? id with
  | none => (false, s)
  | some task =>
    if task.state = .suspended then
      (true, (s.setTask id (task.setState .ready)).addToReadyQueue id)
    else (false, s)

/-- `reset()`. -/
def reset : Scheduler Fn :=
  ensureIdleTask
    { s.stop with
      tasks := ∅, readyQueue := .empty, delayQueue := [], tickCount := 0, nextTaskId := 1,
      currentTaskId := idleTaskId }

theorem reset_eq_init : s.reset = init := rfl

end Scheduler

/-- The public operations of the scheduler that change it. -/
inductive Call (Fn : Type) where
  | createTask (name : String) (function : Option Fn) (priority : UInt8) (stackSize : UInt64)
  | deleteTask (id : TaskId)
  | start
  | stop
  | schedule
  | yield
  | delay (ticks : UInt64)
  | tick
  | suspendTask (id : TaskId)
  | resumeTask (id : TaskId)
  | reset

/-- One public operation. -/
def Scheduler.perform {Fn : Type} (s : Scheduler Fn) :
    Call Fn → Outcome (Scheduler Fn) (Execution Fn)
  | .createTask name function priority stackSize =>
    match s.createTask name (function.map .user) priority stackSize with
    | .ok (_, s') => .returned s'
    -- `std::invalid_argument`, thrown before anything is changed
    | .error _ => .threw s
  | .deleteTask id => (s.deleteTask id).2
  | .start => .returned s.start
  | .stop => .returned s.stop
  | .schedule => s.schedule
  | .yield => s.yield
  | .delay ticks => s.delay ticks
  | .tick => .returned s.tick
  | .suspendTask id => (s.suspendTask id).2
  | .resumeTask id => .returned (s.resumeTask id).2
  | .reset => .returned s.reset

end Rtos

end EFS
