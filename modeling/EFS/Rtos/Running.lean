import EFS.Rtos.Queues

/-!
# The running flag of the scheduler

Only `start`, `stop` and `reset` change the running flag, in any state of the scheduler.
-/

namespace EFS

namespace Rtos

variable {Fn : Type} (s : Scheduler Fn)

namespace Scheduler

@[simp] theorem subscript_running (id : TaskId) : (s.subscript id).running = s.running := by
  unfold subscript
  split_ifs <;> rfl

@[simp] theorem processDelayQueue_running : s.processDelayQueue.running = s.running :=
  s.processDelayQueue_counters.running

@[simp] theorem pickNextTask_running : s.pickNextTask.1.running = s.running := by
  unfold pickNextTask
  split
  · split_ifs <;> rfl
  · rfl

@[simp] theorem preempt_running (id : TaskId) : (s.preempt id).running = s.running := by
  unfold preempt
  split_ifs
  · split
    · split_ifs <;> rfl
    · rfl
  · rfl

theorem dispatch_running (id : TaskId) : (s.dispatch id).state.running = s.running := by
  unfold dispatch
  split
  · split_ifs
    · dsimp only
      split <;> exact s.subscript_running id
    · exact s.subscript_running id
  · exact s.subscript_running id

theorem schedule_running : s.schedule.state.running = s.running := by
  unfold schedule
  split_ifs
  · rw [dispatch_running]
    simp
  · rfl

@[simp] theorem requeueCurrent_running : s.requeueCurrent.running = s.running := by
  unfold requeueCurrent
  split_ifs
  · split
    · split_ifs
      · simp
      · rfl
    · rfl
  · rfl

@[simp] theorem blockCurrent_running (ticks : UInt64) :
    (s.blockCurrent ticks).running = s.running := by
  unfold blockCurrent
  split
  · simp
  · rfl

@[simp] theorem removeTask_running (id : TaskId) : (s.removeTask id).running = s.running := by
  simp [removeTask]

@[simp] theorem parkTask_running (id : TaskId) (task : Task Fn) :
    (s.parkTask id task).running = s.running := by
  simp [parkTask]

@[simp] theorem tick_running : s.tick.running = s.running := by
  rw [tick, processDelayQueue_running]

/-- No other operation changes the running flag. -/
theorem perform_running {o : Call Fn} (hstart : o ≠ .start) (hstop : o ≠ .stop)
    (hreset : o ≠ .reset) : (s.perform o).state.running = s.running := by
  cases o with
  | createTask name function priority stackSize =>
    cases function with
    | none => rfl
    | some f => simp [perform, createTask]
  | deleteTask id =>
    simp only [perform, deleteTask]
    split_ifs
    · rfl
    · rfl
    · rw [schedule_running]
      exact s.removeTask_running id
    · exact s.removeTask_running id
  | start => exact absurd rfl hstart
  | stop => exact absurd rfl hstop
  | schedule => exact s.schedule_running
  | yield =>
    simp only [perform, yield]
    split_ifs
    · rw [schedule_running, requeueCurrent_running]
    · rfl
  | delay ticks =>
    simp only [perform, delay]
    split_ifs
    · rfl
    · rw [schedule_running, blockCurrent_running]
  | tick => exact s.tick_running
  | suspendTask id =>
    simp only [perform, suspendTask]
    split
    · rfl
    · split_ifs
      · rw [schedule_running, parkTask_running]
      · exact s.parkTask_running ..
  | resumeTask id =>
    simp only [perform, resumeTask]
    split
    · rfl
    · split_ifs
      · simp
      · rfl
  | reset => exact absurd rfl hreset

@[simp] theorem start_running : s.start.running = true := rfl

@[simp] theorem stop_running : s.stop.running = false := rfl

end Scheduler

end Rtos

end EFS
