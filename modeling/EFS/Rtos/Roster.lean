import EFS.Data.PriorityLine
import EFS.Rtos.IdleTask

/-!
# What the scheduler is for

The scheduler of the source keeps a state in every task, a map of vectors and a vector of delays,
and repairs all of them in every operation.  A `Roster` is what they are for: the tasks that can be
executed stand in one line, the delayed ones sleep until a tick, and the rest are parked.  It has
one copy of everything:

* whether a task is ready, running, blocked or suspended is where it stands (`Roster.state?`);
* there is one line for all priorities, ordered by them (`IsLine`), and `schedule` executes the
  first one in it, which then joins the line again.

`Roster.perform` says what each operation does to the roster.
-/

namespace EFS

namespace Rtos

instance linearOrderUInt8 : LinearOrder UInt8 where
  le_refl := UInt8.le_refl
  le_trans _ _ _ := UInt8.le_trans
  le_antisymm _ _ := UInt8.le_antisymm
  le_total := UInt8.le_total
  lt_iff_le_not_ge _ _ := Std.LawfulOrderLT.lt_iff _ _
  toDecidableLE := inferInstance
  toDecidableEq := inferInstance
  toDecidableLT := inferInstance

/-- What a task executes, and how urgent it is. -/
structure Profile (Fn : Type) where
  function : TaskFunction Fn
  priority : UInt8

/-- Who waits for the processor, who sleeps until when, and who has the processor. -/
@[ext]
structure Roster (Fn : Type) where
  running : Bool
  tickCount : UInt64
  nextTaskId : TaskId
  currentTaskId : TaskId
  /-- The current task has the processor. -/
  executing : Bool
  profile : TaskId → Option (Profile Fn)
  line : List TaskId
  sleepers : List (TaskId × UInt64)

namespace Roster

variable {Fn : Type} (a : Roster Fn)

/-- The rank of a task in the line. -/
def rank (id : TaskId) : UInt8 := ((a.profile id).map Profile.priority).getD 0

/-- The state of a task is where it stands. -/
def state? (id : TaskId) : Option TaskState :=
  (a.profile id).map fun _ =>
    if id ∈ a.line then if a.executing ∧ id = a.currentTaskId then .running else .ready
    else if id ∈ a.sleepers.map Prod.fst then .blocked
    else .suspended

/-- The task joins the line. -/
def enqueue (id : TaskId) : Roster Fn := { a with line := joinLine a.rank id a.line }

/-- The task neither stands in the line nor sleeps any more. -/
def dismiss (id : TaskId) : Roster Fn :=
  { a with line := a.line.erase id, sleepers := a.sleepers.filter fun e => e.1 ≠ id }

/-- Those whose tick has come join the line, in the order in which they fell asleep. -/
def wake : Roster Fn :=
  { a with
    line := ((a.sleepers.filter fun e => e.2 ≤ a.tickCount).map Prod.fst).foldl
      (fun l id => joinLine a.rank id l) a.line
    sleepers := a.sleepers.filter fun e => ¬ e.2 ≤ a.tickCount }

/-- The first one in the line is executed, and joins the line again; if there is none, the idle
task is current without being executed. -/
def schedule : Outcome (Roster Fn) (Execution Fn) :=
  if a.running then
    match a.wake.line with
    | [] => .returned { a.wake with currentTaskId := idleTaskId, executing := false }
    | id :: rest =>
      let b := { a.wake with
        line := joinLine a.rank id rest, currentTaskId := id, executing := true }
      match a.profile id with
      | some p => .entered b ⟨id, p.function⟩
      | none => .returned b
  else .returned a

/-- The task that has the processor goes behind its equals; the idle task does not. -/
def stepBack : Roster Fn :=
  if a.executing ∧ a.currentTaskId ≠ idleTaskId then
    { a with
      line := joinLine a.rank a.currentTaskId (a.line.erase a.currentTaskId), executing := false }
  else a

/-- The current task falls asleep. -/
def sleep (ticks : UInt64) : Roster Fn :=
  { a.dismiss a.currentTaskId with
    executing := false
    sleepers := (a.dismiss a.currentTaskId).sleepers ++
      [(a.currentTaskId, a.tickCount + ticks)] }

/-- The roster of a new scheduler. -/
def init : Roster Fn where
  running := false
  tickCount := 0
  nextTaskId := 1
  currentTaskId := idleTaskId
  executing := false
  profile id := if id = idleTaskId then some ⟨.idleLoop, idleTaskPriority⟩ else none
  line := [idleTaskId]
  sleepers := []

/-- A task is created. -/
def create (f : Fn) (priority : UInt8) : Roster Fn :=
  enqueue
    { a with
      profile := Function.update a.profile a.nextTaskId (some ⟨.user f, priority⟩)
      nextTaskId := a.nextTaskId + 1 } a.nextTaskId

/-- A task is deleted; the idle task and unknown ids are left alone. -/
def delete (id : TaskId) : Outcome (Roster Fn) (Execution Fn) :=
  if id = idleTaskId ∨ (a.profile id).isNone then .returned a
  else
    let b := { a.dismiss id with profile := Function.update a.profile id none }
    if a.currentTaskId = id then
      schedule { b with currentTaskId := idleTaskId, executing := false }
    else .returned b

/-- A task leaves the line; a running one gives way to another. -/
def suspend (id : TaskId) : Outcome (Roster Fn) (Execution Fn) :=
  if (a.profile id).isNone then .returned a
  else
    let b := { a.dismiss id with executing := a.executing && id != a.currentTaskId }
    if id = a.currentTaskId ∧ a.running then b.schedule else .returned b

/-- One public operation, seen on the roster. -/
def perform : Call Fn → Outcome (Roster Fn) (Execution Fn)
  | .createTask _ (some f) priority _ => .returned (a.create f priority)
  | .createTask _ none _ _ => .threw a
  | .deleteTask id => a.delete id
  | .start => .returned { a with running := true }
  | .stop => .returned { a with running := false }
  | .schedule => a.schedule
  | .yield => if a.running then a.stepBack.schedule else .returned a
  | .delay ticks =>
    if a.running ∧ a.currentTaskId ≠ idleTaskId then (a.sleep ticks).schedule else .returned a
  | .tick => .returned { a with tickCount := a.tickCount + 1 }.wake
  | .suspendTask id => a.suspend id
  | .resumeTask id => .returned (if a.state? id = some .suspended then a.enqueue id else a)
  | .reset => .returned init

/-- A task that the operation creates gets an id that nobody has. -/
def FreshId : Call Fn → Prop
  | .createTask _ (some _) _ _ => a.profile a.nextTaskId = none
  | _ => True

end Roster

/-- The roster as a component, with the operations and frames of the scheduler. -/
def rosterComponent (Fn : Type) : Reentrant (Roster Fn) (Call Fn) (Execution Fn) where
  call a o := a.perform o
  resume a _ := .returned a
  unwind a _ := a

/-- The roster with arbitrary code around it. -/
def rosterMachine (Fn : Type) : LTS (Roster Fn × List (Execution Fn))
    (Reentrant.Label (Call Fn) (Execution Fn)) :=
  (rosterComponent Fn).lts Roster.FreshId

/-! ### The roster that a scheduler keeps -/

/-- What the roster knows about a task. -/
def Task.profile {Fn : Type} (t : Task Fn) : Option (Profile Fn) :=
  t.function.map fun f => ⟨f, t.priority⟩

namespace Scheduler

variable {Fn : Type} (s : Scheduler Fn)

/-- The tick until which a task is delayed. -/
def deadline (id : TaskId) : UInt64 := ((s.task? id).map Task.delayUntilTick).getD 0

/-- The roster that the containers of the scheduler stand for. -/
def roster : Roster Fn where
  running := s.running
  tickCount := s.tickCount
  nextTaskId := s.nextTaskId
  currentTaskId := s.currentTaskId
  executing := (s.task? s.currentTaskId).any fun t => t.state = .running
  profile id := (s.task? id).bind Task.profile
  line := s.readyIds
  sleepers := s.delayQueue.map fun id => (id, s.deadline id)

end Scheduler

end Rtos

end EFS
