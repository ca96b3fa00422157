import EFS.Rtos.Operations

/-!
# What an operation does to the other tasks

`Settled.perform` says that an operation leaves the scheduler settled.  The lemmas here say what
it changes on the way:

* `Settled.perform_origin` : a task of the new state is one of the old state, with the same
  function and priority, or the operation has just created it;
* `Settled.perform_waiting` : a task that is waiting for a later tick goes on waiting;
* `Settled.perform_entered` : the function that is entered is that of the new current task.

`Numbered.perform` follows from the first: ids are handed out in order.
-/

namespace EFS

namespace Rtos

/-- What never changes about a task: its function and its priority. -/
def Task.signature {Fn : Type} (t : Task Fn) : Option (TaskFunction Fn) × UInt8 :=
  (t.function, t.priority)

/-- How many tasks have been created since the last reset, once the operation is performed. -/
def Call.countCreated {Fn : Type} (created : ℕ) : Call Fn → ℕ
  | .createTask _ (some _) _ _ => created + 1
  | .reset => 0
  | _ => created

/-- The operation takes the task `T`, or all tasks, out of the queues regardless of time. -/
def Call.Disturbs {Fn : Type} (T : TaskId) : Call Fn → Prop
  | .suspendTask id => id = T
  | .resumeTask id => id = T
  | .deleteTask id => id = T
  | .reset => True
  | _ => False

section

variable {Fn : Type} (t : Task Fn)

@[simp] theorem Task.setState_signature (st : TaskState) :
    (t.setState st).signature = t.signature := rfl
@[simp] theorem Task.setDelayUntilTick_signature (n : UInt64) :
    (t.setDelayUntilTick n).signature = t.signature := rfl
@[simp] theorem Task.relinquish_signature : t.relinquish.signature = t.signature := by
  simp [signature]
@[simp] theorem Task.run_signature : t.run.signature = t.signature := by simp [signature]

end

namespace Scheduler

variable {Fn : Type} {s s' : Scheduler Fn} {T : TaskId} {t : Task Fn}

/-- Every task of `s'` is one of `s`, with the same function and priority. -/
def TasksFrom (s s' : Scheduler Fn) : Prop :=
  ∀ i t', s'.task? i = some t' → ∃ t, s.task? i = some t ∧ t.signature = t'.signature

theorem TasksFrom.refl (s : Scheduler Fn) : TasksFrom s s := fun _ t' h => ⟨t', h, rfl⟩

theorem TasksFrom.trans {u : Scheduler Fn} (h : TasksFrom s s') (h' : TasksFrom s' u) :
    TasksFrom s u := by
  intro i t' ht'
  obtain ⟨t, ht, he⟩ := h' i t' ht'
  obtain ⟨v, hv, hve⟩ := h i t ht
  exact ⟨v, hv, hve.trans he⟩

theorem TasksFrom.of_write (t' : Task Fn) (hT : s.task? T = some t)
    (he : t'.signature = t.signature)
    (hs : ∀ i, s'.task? i = if i = T then some t' else s.task? i) : TasksFrom s s' := by
  intro i u hu
  rw [hs] at hu
  split_ifs at hu with hi
  · exact ⟨t, hi ▸ hT, by rw [← he, Option.some.inj hu]⟩
  · exact ⟨u, hu, rfl⟩

theorem tasksFrom_processDelayQueue : TasksFrom s s.processDelayQueue := by
  intro i t' ht'
  by_cases he : i ∈ s.delayQueue ∧ s.Expired i
  · obtain ⟨hm, u, hu, hle⟩ := he
    rw [processDelayQueue_task?_of_expired _ hm hu hle, Option.some.injEq] at ht'
    exact ⟨u, hu, by rw [← ht']; simp⟩
  · rw [processDelayQueue_task?_of_not _ he] at ht'
    exact ⟨t', ht', rfl⟩

theorem Coherent.tasksFrom_schedule (h : s.Coherent) : TasksFrom s s.schedule.state := by
  by_cases hs : s.running = true
  · obtain ⟨id, t, hd⟩ := h.decision hs
    refine tasksFrom_processDelayQueue.trans ?_
    intro i t' ht'
    rw [hd.tasks] at ht'
    by_cases hi : i = id
    · rw [if_pos hi, Option.some.injEq] at ht'
      refine ⟨t, hi ▸ hd.picked, ?_⟩
      rw [← ht']
      split_ifs <;> simp
    · rw [if_neg hi] at ht'
      obtain ⟨v, hv, rfl⟩ := Option.map_eq_some_iff.1 ht'
      exact ⟨v, hv, by simp⟩
  · simpa [Scheduler.schedule, hs] using TasksFrom.refl s

theorem Coherent.schedule_counters (h : s.Coherent) : SameCounters s s.schedule.state := by
  by_cases hs : s.running = true
  · obtain ⟨id, t, hd⟩ := h.decision hs
    exact hd.counters
  · rw [Scheduler.schedule, if_neg hs]
    exact ⟨rfl, rfl, rfl⟩

/-- A task that cannot be executed, and does not wait for a tick that has come, stays as it is
through a scheduling decision. -/
theorem Coherent.schedule_not_runnable (h : s.Coherent) (hT : s.task? T = some t)
    (hr : ¬ t.Runnable) (hlt : t.state = .blocked → s.tickCount < t.delayUntilTick) :
    s.schedule.state.task? T = some t := by
  by_cases hs : s.running = true
  · obtain ⟨id, u, hd⟩ := h.decision hs
    have hkeep : s.processDelayQueue.task? T = some t := by
      rw [processDelayQueue_task?_of_not, hT]
      rintro ⟨hm, v, hv, hle⟩
      obtain rfl : t = v := Option.some.inj (hT.symm.trans hv)
      obtain ⟨w, hw, hb⟩ := (h.mem_delay T).1 hm
      obtain rfl : t = w := Option.some.inj (hT.symm.trans hw)
      exact UInt64.not_le.2 (hlt hb) hle
    rw [hd.tasks]
    split_ifs with hi hu
    · obtain rfl : t = u := Option.some.inj (hkeep.symm.trans (hi ▸ hd.picked))
      exact absurd hu hr
    · rw [← hkeep, hi, hd.picked]
    · rw [hkeep, Option.map_some, t.relinquish_of_ne fun hrun => hr (.inr hrun)]
  · simpa [Scheduler.schedule, hs] using hT

theorem Coherent.schedule_expired (h : s.Coherent) (hs : s.running = true)
    (hT : s.task? T = some t) (hb : t.state = .blocked) (hle : t.delayUntilTick ≤ s.tickCount) :
    ∃ u, s.schedule.state.task? T = some u ∧ u.Runnable ∧
      u.delayUntilTick = t.delayUntilTick := by
  obtain ⟨id, v, hd⟩ := h.decision hs
  have hwake := s.processDelayQueue_task?_of_expired ((h.mem_delay T).2 ⟨t, hT, hb⟩) hT hle
  by_cases hi : T = id
  · obtain rfl : t.setState .ready = v := Option.some.inj (hwake.symm.trans (hi ▸ hd.picked))
    have hr : (t.setState .ready).Runnable := .inl rfl
    rw [hd.tasks, if_pos hi, if_pos hr]
    exact ⟨_, rfl, .inr (by simp), by simp⟩
  · rw [hd.tasks, if_neg hi, hwake]
    exact ⟨_, rfl, (Task.relinquish_runnable _).2 (.inl rfl), by simp⟩

/-- The function entered by a scheduling decision is that of the new current task. -/
theorem Coherent.schedule_entered (h : s.Coherent) {x : Execution Fn}
    (hx : s.schedule.frame? = some x) :
    s.running = true ∧ s.schedule = .entered s.schedule.state x ∧
      s.schedule.state.currentTaskId = x.task ∧
      ∃ t, s.schedule.state.task? x.task = some t ∧ t.state = .running ∧
        t.function = some x.function := by
  by_cases hs : s.running = true
  · obtain ⟨id, t, hd⟩ := h.decision hs
    by_cases hr : t.Runnable
    · obtain ⟨f, hf, he⟩ := hd.entered hr
      rw [he, Outcome.frame?_entered, Option.some.injEq] at hx
      subst hx
      refine ⟨hs, he, hd.currentTaskId, t.run, ?_, by simp, by simpa using hf⟩
      rw [hd.tasks, if_pos rfl, if_pos hr]
    · rw [hd.returned hr] at hx
      cases hx
  · simp [Scheduler.schedule, hs] at hx

/-! ### All operations -/

theorem Coherent.requeueCurrent_task? (h : s.Coherent) (i : TaskId) :
    s.requeueCurrent.task? i = s.task? i ∨ i = s.currentTaskId ∧ ∃ t, s.task? i = some t ∧
      t.state = .running ∧ s.requeueCurrent.task? i = some (t.setState .ready) := by
  rcases h.requeueCurrent with he | ⟨t, ht, hr, rq, he, -, -⟩
  · exact .inl (by rw [he])
  · have htask : s.requeueCurrent.task? i =
        if i = s.currentTaskId then some (t.setState .ready) else s.task? i := by
      rw [he]
      exact task?_setTask s _ i _
    by_cases hi : i = s.currentTaskId
    · exact .inr ⟨hi, t, hi ▸ ht, hr, by rw [htask, if_pos hi]⟩
    · exact .inl (by rw [htask, if_neg hi])

/-- `yield` changes none of the plain fields before it schedules. -/
theorem Coherent.requeueCurrent_fields (h : s.Coherent) :
    SameCounters s s.requeueCurrent ∧ s.requeueCurrent.currentTaskId = s.currentTaskId ∧
      s.requeueCurrent.delayQueue = s.delayQueue := by
  rcases h.requeueCurrent with he | ⟨t, -, -, rq, he, -, -⟩ <;> rw [he] <;>
    exact ⟨⟨rfl, rfl, rfl⟩, rfl, rfl⟩

/-- The operation calls `schedule()`. -/
def Schedules (s : Scheduler Fn) : Call Fn → Prop
  | .deleteTask id => id ≠ idleTaskId ∧ s.task? id ≠ none ∧ s.currentTaskId = id
  | .schedule => True
  | .yield => s.running = true
  | .delay _ => s.running = true ∧ s.currentTaskId ≠ idleTaskId
  | .suspendTask id => s.task? id ≠ none ∧ id = s.currentTaskId ∧ s.running = true
  | _ => False

/-- The state in which the operation calls `schedule()`, or the one it leaves if it does not. -/
def prepare (s : Scheduler Fn) : Call Fn → Scheduler Fn
  | .deleteTask id =>
    if id = idleTaskId ∨ s.task? id = none then s
    else { s.removeTask id with
      currentTaskId := if s.currentTaskId = id then idleTaskId else s.currentTaskId }
  | .schedule => s
  | .yield => if s.running then s.requeueCurrent else s
  | .delay ticks =>
    if s.running = true ∧ s.currentTaskId ≠ idleTaskId then s.blockCurrent ticks else s
  | .suspendTask id =>
    match s.task? id with
    | some task => s.parkTask id task
    | none => s
  | o => (s.perform o).state

/-- Every operation is a preparation, after which it may schedule. -/
theorem Coherent.perform_spec (h : s.Coherent) (o : Call Fn) :
    s.Schedules o ∧ s.perform o = (s.prepare o).schedule ∨
      ¬ s.Schedules o ∧ (s.perform o).state = s.prepare o ∧ (s.perform o).frame? = none := by
  cases o with
  | createTask name function p n =>
    cases function with
    | none => exact .inr ⟨id, rfl, rfl⟩
    | some f => exact .inr ⟨id, rfl, rfl⟩
  | deleteTask id =>
    simp only [Schedules, prepare, Scheduler.perform, Scheduler.deleteTask]
    by_cases hi : id = idleTaskId
    · simp [hi]
    · by_cases hn : s.task? id = none
      · simp [hi, hn]
      · -- only the deletion of the current task schedules
        by_cases hc : s.currentTaskId = id
        · simp [hi, hn, hc]
        · right
          refine ⟨fun hs => hc hs.2.2, ?_⟩
          simp only [hi, hn, hc, or_self, ↓reduceIte, Outcome.state_returned,
            Outcome.frame?_returned, and_true]
          simp [Scheduler.removeTask]
  | start => exact .inr ⟨id, rfl, rfl⟩
  | stop => exact .inr ⟨id, rfl, rfl⟩
  | schedule => exact .inl ⟨trivial, rfl⟩
  | yield =>
    by_cases hs : s.running = true
    · exact .inl ⟨hs, by simp [Scheduler.perform, Scheduler.yield, prepare, hs]⟩
    · exact .inr ⟨hs, by simp [Scheduler.perform, Scheduler.yield, prepare, hs]⟩
  | delay n =>
    by_cases hs : s.running = true ∧ s.currentTaskId ≠ idleTaskId
    · refine .inl ⟨hs, ?_⟩
      simp [Scheduler.perform, Scheduler.delay, prepare, hs]
    · refine .inr ⟨hs, ?_⟩
      have : ¬ s.running = true ∨ s.currentTaskId = idleTaskId := by
        rwa [not_and_or, not_not] at hs
      simp only [Scheduler.perform, Scheduler.delay, this, ↓reduceIte, prepare, hs,
        Outcome.state_returned, Outcome.frame?_returned, and_self]
  | tick => exact .inr ⟨id, rfl, rfl⟩
  | suspendTask id =>
    simp only [Schedules, prepare, Scheduler.perform, Scheduler.suspendTask]
    cases ht : s.task? id with
    | none => simp
    | some t =>
      -- `suspendTask` asks after the task has been taken out of the queues
      have hpark := h.parkTask ht
      simp only [hpark.currentTaskId, hpark.counters.running]
      by_cases hc : id = s.currentTaskId ∧ s.running = true
      · simp [hc]
      · exact .inr ⟨fun hs => hc hs.2, by simp [hc]⟩
  | resumeTask _ => exact .inr ⟨id, rfl, rfl⟩
  | reset => exact .inr ⟨id, rfl, rfl⟩

theorem Settled.prepare_coherent (h : s.Settled) {o : Call Fn} (ho : s.Schedules o) :
    (s.prepare o).Coherent := by
  cases o with
  | deleteTask id =>
    obtain ⟨hi, hn, -⟩ := ho
    obtain ⟨t, ht⟩ := Option.ne_none_iff_exists'.1 hn
    simpa [prepare, hi, hn] using (h.removeTask ht hi _ rfl).toCoherent
  | schedule => exact h.toCoherent
  | yield => simpa [prepare, show s.running = true from ho] using h.coherent_requeueCurrent
  | delay n =>
    obtain ⟨t, hblock⟩ := h.blockCurrent h.current_not_blocked ho.2 n
    simpa [prepare, ho.1, ho.2] using hblock.coherent
  | suspendTask id =>
    obtain ⟨t, ht⟩ := Option.ne_none_iff_exists'.1 ho.1
    simpa [prepare, ht] using (h.parkTask ht).toCoherent
  | createTask _ _ _ _ => exact ho.elim
  | start => exact ho.elim
  | stop => exact ho.elim
  | tick => exact ho.elim
  | resumeTask _ => exact ho.elim
  | reset => exact ho.elim

/-- What holds when an operation is prepared, and is kept by scheduling, holds after it. -/
theorem Settled.perform_of (h : s.Settled) (o : Call Fn) {P : Scheduler Fn → Prop}
    (hp : P (s.prepare o)) (hs : ∀ u : Scheduler Fn, u.Coherent → P u → P u.schedule.state) :
    P (s.perform o).state := by
  rcases h.perform_spec o with ⟨ho, he⟩ | ⟨-, he, -⟩
  · rw [he]; exact hs _ (h.prepare_coherent ho) hp
  · rwa [he]

/-- The function entered by an operation is that of the new current task, which is running. -/
theorem Settled.perform_entered (h : s.Settled) {o : Call Fn} {x : Execution Fn}
    (hx : (s.perform o).frame? = some x) :
    s.Schedules o ∧ s.perform o = .entered (s.perform o).state x ∧
      (s.perform o).state.running = true ∧ (s.perform o).state.currentTaskId = x.task ∧
      ∃ t, (s.perform o).state.task? x.task = some t ∧ t.state = .running ∧
        t.function = some x.function := by
  rcases h.perform_spec o with ⟨ho, he⟩ | ⟨-, -, he⟩
  · rw [he] at hx ⊢
    obtain ⟨hr, h1, h2, h3⟩ := (h.prepare_coherent ho).schedule_entered hx
    exact ⟨ho, h1, (h.prepare_coherent ho).schedule_counters.running.trans hr, h2, h3⟩
  · rw [he] at hx; cases hx

/-! ### Where tasks come from -/

/-- Where a task of the state after `o` comes from. -/
inductive Origin (s : Scheduler Fn) (o : Call Fn) (i : TaskId) :
    Option (TaskFunction Fn) × UInt8 → Prop
  | kept (t : Task Fn) : s.task? i = some t → Origin s o i t.signature
  | created (name : String) (f : Fn) (p : UInt8) (n : UInt64) :
      o = .createTask name (some f) p n → i = s.nextTaskId → Origin s o i (some (.user f), p)
  | idle : o = .reset → i = idleTaskId → Origin s o i (some .idleLoop, idleTaskPriority)

theorem TasksFrom.origin (h : TasksFrom s s') (o : Call Fn) {i : TaskId}
    (ht : s'.task? i = some t) : s.Origin o i t.signature := by
  obtain ⟨u, hu, he⟩ := h i t ht
  exact he ▸ .kept u hu

theorem Settled.prepare_origin (h : s.Settled) (o : Call Fn) {i : TaskId}
    (ht : (s.prepare o).task? i = some t) : s.Origin o i t.signature := by
  cases o with
  | createTask name function p n =>
    cases function with
    | none => exact .kept t ht
    | some f =>
      change ((setTask _ s.nextTaskId _).addToReadyQueue s.nextTaskId).task? i = _ at ht
      rw [addToReadyQueue_task?, task?_setTask] at ht
      split_ifs at ht with hi
      · rw [← Option.some.inj ht]
        exact .created name f p n rfl hi
      · exact .kept t ht
  | deleteTask id =>
    simp only [prepare] at ht
    split_ifs at ht
    · exact .kept t ht
    all_goals
      change (s.removeTask id).task? i = some t at ht
      rw [removeTask_task?] at ht
      split_ifs at ht
      exact .kept t ht
  | start =>
    simp only [prepare, Scheduler.perform, Scheduler.start, h.ensureIdleTask] at ht
    exact .kept t ht
  | stop => exact .kept t ht
  | schedule => exact .kept t ht
  | yield =>
    simp only [prepare] at ht
    split_ifs at ht
    · -- the current task is written back with the same function and priority
      rcases h.requeueCurrent_task? i with he | ⟨-, v, hv, -, he⟩
      · exact .kept t (he ▸ ht)
      · rw [he, Option.some.injEq] at ht
        rw [← ht]
        exact .kept v hv
    · exact .kept t ht
  | delay n =>
    simp only [prepare] at ht
    split_ifs at ht with hc
    · obtain ⟨u, hblock⟩ := h.blockCurrent h.current_not_blocked hc.2 n
      -- blocking writes the current task and no other
      exact (TasksFrom.of_write _ hblock.current (by simp) hblock.tasks).origin _ ht
    · exact .kept t ht
  | tick =>
    have : TasksFrom s s.tick :=
      tasksFrom_processDelayQueue (s := { s with tickCount := s.tickCount + 1 })
    exact this.origin _ ht
  | suspendTask id =>
    simp only [prepare] at ht
    split at ht
    · rename_i u hu
      exact (TasksFrom.of_write _ hu (by simp) (h.toCoherent.parkTask hu).tasks).origin _ ht
    · exact .kept t ht
  | resumeTask id =>
    simp only [prepare, Scheduler.perform, Scheduler.resumeTask] at ht
    split at ht
    · exact .kept t ht
    · rename_i u hu
      split_ifs at ht
      · refine (TasksFrom.of_write (u.setState .ready) hu (by simp) ?_).origin _ ht
        intro i
        simp
      · exact .kept t ht
  | reset =>
    change (init : Scheduler Fn).task? i = _ at ht
    rw [task?_init] at ht
    split_ifs at ht with hi
    rw [← Option.some.inj ht]
    exact .idle rfl hi

/-- A task of the state after an operation comes from the state before, unless it was created
by the operation. -/
theorem Settled.perform_origin (h : s.Settled) (o : Call Fn) {i : TaskId}
    (ht : (s.perform o).state.task? i = some t) : s.Origin o i t.signature := by
  refine h.perform_of o (P := fun u => ∀ t, u.task? i = some t → s.Origin o i t.signature)
    (fun t ht => h.prepare_origin o ht) ?_ t ht
  intro u hu ih v hv
  obtain ⟨w, hw, he⟩ := hu.tasksFrom_schedule i v hv
  exact he ▸ ih w hw

/-- The counters after an operation. -/
theorem Settled.perform_counters (h : s.Settled) (o : Call Fn) :
    (s.perform o).state.nextTaskId = (match o with
      | .createTask _ (some _) _ _ => s.nextTaskId + 1
      | .reset => 1
      | _ => s.nextTaskId) ∧
    (s.perform o).state.tickCount = (match o with
      | .tick => s.tickCount + 1
      | .reset => 0
      | _ => s.tickCount) ∧
    (s.perform o).state.running = (match o with
      | .start => true
      | .stop => false
      | .reset => false
      | _ => s.running) := by
  -- scheduling changes none of the three, so only what precedes it counts
  refine h.perform_of o (P := fun u => u.nextTaskId = _ ∧ u.tickCount = _ ∧ u.running = _) ?_
    fun u hu ⟨h1, h2, h3⟩ => ⟨hu.schedule_counters.nextTaskId.trans h1,
      hu.schedule_counters.tickCount.trans h2, hu.schedule_counters.running.trans h3⟩
  cases o with
  | createTask name function p n =>
    cases function with
    | none => exact ⟨rfl, rfl, rfl⟩
    | some f => simp [prepare, Scheduler.perform, Scheduler.createTask]
  | deleteTask id =>
    simp only [prepare]
    split_ifs <;> simp [Scheduler.removeTask]
  | start => simp [prepare, Scheduler.perform, Scheduler.start, h.ensureIdleTask]
  | stop => exact ⟨rfl, rfl, rfl⟩
  | schedule => exact ⟨rfl, rfl, rfl⟩
  | yield =>
    have hcnt := h.requeueCurrent_fields.1
    simp only [prepare]
    split_ifs
    · exact ⟨hcnt.nextTaskId, hcnt.tickCount, hcnt.running⟩
    · exact ⟨rfl, rfl, rfl⟩
  | delay n =>
    simp only [prepare]
    split_ifs with hc
    · obtain ⟨u, hblock⟩ := h.blockCurrent h.current_not_blocked hc.2 n
      exact ⟨hblock.counters.nextTaskId, hblock.counters.tickCount, hblock.counters.running⟩
    · exact ⟨rfl, rfl, rfl⟩
  | tick =>
    have hcnt := processDelayQueue_counters { s with tickCount := s.tickCount + 1 }
    exact ⟨hcnt.nextTaskId, hcnt.tickCount, hcnt.running⟩
  | suspendTask id =>
    simp only [prepare]
    split
    · rename_i u hu
      have hcnt := (h.toCoherent.parkTask hu).counters
      exact ⟨hcnt.nextTaskId, hcnt.tickCount, hcnt.running⟩
    · exact ⟨rfl, rfl, rfl⟩
  | resumeTask id =>
    simp only [prepare, Scheduler.perform, Scheduler.resumeTask]
    split
    · exact ⟨rfl, rfl, rfl⟩
    · split_ifs <;> simp
  | reset => simp [prepare, Scheduler.perform, reset_eq_init, init, Scheduler.ensureIdleTask]

/-! ### Waiting tasks -/

/-- Preparing an operation that is about other tasks leaves a task that cannot be executed as it
is, unless it is the current task and delays itself, or waits for the next tick. -/
theorem Settled.prepare_not_runnable (h : s.Settled) {o : Call Fn} (hT : s.task? T = some t)
    (hnr : ¬ t.Runnable)
    (hfresh : s.FreshId o) (ho : ¬ o.Disturbs T)
    (hdelay : ∀ n, o = .delay n → s.running = true → s.currentTaskId ≠ idleTaskId →
      T ≠ s.currentTaskId)
    (hlate : o = .tick → t.state = .blocked → ¬ t.delayUntilTick ≤ s.tickCount + 1) :
    (s.prepare o).task? T = some t := by
  cases o with
  | createTask name function p n =>
    cases function with
    | none => exact hT
    | some f =>
      change ((setTask _ s.nextTaskId _).addToReadyQueue s.nextTaskId).task? T = _
      -- the new task gets an id that is not in use
      have hne : T ≠ s.nextTaskId := by
        rintro rfl
        cases hT.symm.trans hfresh
      rw [addToReadyQueue_task?, task?_setTask, if_neg hne]
      exact hT
  | deleteTask id =>
    simp only [prepare]
    split_ifs
    · exact hT
    all_goals
      change (s.removeTask id).task? T = some t
      rw [removeTask_task?, if_neg (Ne.symm ho)]
      exact hT
  | start =>
    simp only [prepare, Scheduler.perform, Scheduler.start, h.ensureIdleTask]
    exact hT
  | stop => exact hT
  | schedule => exact hT
  | yield =>
    simp only [prepare]
    split_ifs
    · rcases h.requeueCurrent_task? T with he | ⟨-, v, hv, hrun, -⟩
      · rw [he]; exact hT
      · obtain rfl : t = v := Option.some.inj (hT.symm.trans hv)
        exact absurd (.inr hrun) hnr
    · exact hT
  | delay n =>
    simp only [prepare]
    split_ifs with hc
    · obtain ⟨u, hblock⟩ := h.blockCurrent h.current_not_blocked hc.2 n
      rw [hblock.tasks, if_neg (hdelay n rfl hc.1 hc.2)]
      exact hT
    · exact hT
  | tick =>
    refine (processDelayQueue_task?_of_not { s with tickCount := s.tickCount + 1 } ?_).trans hT
    -- a task is woken from the delay queue only, and there all are blocked
    rintro ⟨hm, u, hu, hle⟩
    obtain rfl : t = u := Option.some.inj (hT.symm.trans hu)
    obtain ⟨v, hv, hb⟩ := (h.mem_delay T).1 hm
    obtain rfl : t = v := Option.some.inj (hT.symm.trans hv)
    exact hlate rfl hb hle
  | suspendTask id =>
    simp only [prepare]
    split
    · rename_i u hu
      rw [(h.toCoherent.parkTask hu).tasks, if_neg (Ne.symm ho)]
      exact hT
    · exact hT
  | resumeTask id =>
    simp only [prepare, Scheduler.perform, Scheduler.resumeTask]
    split
    · exact hT
    · split_ifs
      · simpa [Ne.symm (show id ≠ T from ho)] using hT
      · exact hT
  | reset => exact absurd trivial ho

/-- A task that waits for a later tick goes on waiting, whatever is done to other tasks. -/
theorem Settled.perform_waiting (h : s.Settled) (hT : s.task? T = some t)
    (hb : t.state = .blocked) {o : Call Fn} (hfresh : s.FreshId o) (ho : ¬ o.Disturbs T)
    (hlt : (s.perform o).state.tickCount < t.delayUntilTick) :
    (s.perform o).state.task? T = some t ∧ T ∉ (s.perform o).frame?.map Execution.task := by
  have hlate : o = .tick → t.state = .blocked → ¬ t.delayUntilTick ≤ s.tickCount + 1 := by
    rintro rfl -
    rw [(h.perform_counters .tick).2.1] at hlt
    exact UInt64.not_le.2 hlt
  have hnr : ¬ t.Runnable := by simp [Task.Runnable, hb]
  have hcur : T ≠ s.currentTaskId := by
    rintro rfl
    exact h.current_not_blocked t hT hb
  have htick : (s.prepare o).tickCount = (s.perform o).state.tickCount := by
    rcases h.perform_spec o with ⟨hs, he⟩ | ⟨-, he, -⟩
    · rw [he, (h.prepare_coherent hs).schedule_counters.tickCount]
    · rw [he]
  -- scheduling does not wake the task either
  have hkeep : (s.perform o).state.task? T = some t :=
    (h.perform_of o
      (P := fun u => u.tickCount = (s.perform o).state.tickCount ∧ u.task? T = some t)
      ⟨htick, h.prepare_not_runnable hT hnr hfresh ho (fun _ _ _ _ => hcur) hlate⟩
      fun u hu hkept => ⟨hu.schedule_counters.tickCount.trans hkept.1,
        hu.schedule_not_runnable hkept.2 hnr fun _ => hkept.1 ▸ hlt⟩).2
  refine ⟨hkeep, ?_⟩
  intro hm
  obtain ⟨x, hx, rfl⟩ := Option.mem_map.1 hm
  obtain ⟨-, -, -, -, u, hu, hr, -⟩ := h.perform_entered hx
  rw [hkeep, Option.some.injEq] at hu
  rw [← hu, hb] at hr
  cases hr

theorem Settled.tick_wakes (h : s.Settled) (hT : s.task? T = some t) (hb : t.state = .blocked)
    (hle : t.delayUntilTick ≤ s.tickCount + 1) : s.tick.task? T = some (t.setState .ready) :=
  processDelayQueue_task?_of_expired { s with tickCount := s.tickCount + 1 }
    ((h.mem_delay T).2 ⟨t, hT, hb⟩) hT hle

/-- What `delay` does to the current task: it is blocked until its deadline, or can be executed
again at once if that deadline is not later than the current tick. -/
theorem Settled.delay_current (h : s.Settled) (hs : s.running = true)
    (hidle : s.currentTaskId ≠ idleTaskId) (n : UInt64) :
    ∃ u, (s.delay n).state.task? s.currentTaskId = some u ∧
      u.delayUntilTick = s.tickCount + n ∧
      (s.tickCount < s.tickCount + n → u.state = .blocked ∧
        s.currentTaskId ∉ (s.delay n).frame?.map Execution.task) ∧
      (¬ s.tickCount < s.tickCount + n → u.Runnable) := by
  obtain ⟨t, hblock⟩ := h.blockCurrent h.current_not_blocked hidle n
  have hcoh := hblock.coherent
  have htick := hblock.counters.tickCount
  have hd : s.delay n = (s.blockCurrent n).schedule := by simp [Scheduler.delay, hs, hidle]
  have hself := hblock.tasks s.currentTaskId
  rw [if_pos rfl] at hself
  rw [hd]
  by_cases hlt : s.tickCount < s.tickCount + n
  · have hkeep := hcoh.schedule_not_runnable hself (by simp [Task.Runnable])
      fun _ => by simpa [htick] using hlt
    refine ⟨_, hkeep, rfl, fun _ => ⟨rfl, ?_⟩, fun hn => absurd hlt hn⟩
    intro hm
    obtain ⟨x, hx, hxT⟩ := Option.mem_map.1 hm
    obtain ⟨-, -, -, u, hu, hr, -⟩ := hcoh.schedule_entered hx
    rw [hxT, hkeep, Option.some.injEq] at hu
    rw [← hu] at hr
    cases hr
  · obtain ⟨u, hu, hr, hdl⟩ := hcoh.schedule_expired (hblock.counters.running.trans hs) hself rfl
      (by simpa [htick] using UInt64.not_lt.1 hlt)
    exact ⟨u, hu, hdl, fun h' => absurd h' hlt, fun _ => hr⟩

/-- What `delay` does to another task: nothing, or it gives it the processor. -/
theorem Settled.delay_other (h : s.Settled) {i : TaskId} (hi : i ≠ s.currentTaskId)
    (n : UInt64) : (s.delay n).state.task? i = s.task? i ∨
      i ∈ (s.delay n).frame?.map Execution.task ∧
        ∃ t, s.task? i = some t ∧ (s.delay n).state.task? i = some t.run := by
  by_cases hc : ¬ s.running = true ∨ s.currentTaskId = idleTaskId
  · left; simp only [Scheduler.delay, hc, ↓reduceIte, Outcome.state_returned]
  rw [not_or, not_not] at hc
  obtain ⟨t, hblock⟩ := h.blockCurrent h.current_not_blocked hc.2 n
  have hsched : s.delay n = (s.blockCurrent n).schedule := by simp [Scheduler.delay, hc]
  obtain ⟨id, u, hd⟩ := hblock.coherent.decision (hblock.counters.running.trans hc.1)
  -- no other task is woken: in a settled state all deadlines are in the future
  have hsame : (s.blockCurrent n).processDelayQueue.task? i = s.task? i := by
    rw [processDelayQueue_task?_of_not, hblock.tasks, if_neg hi]
    rintro ⟨hm, v, hv, hle⟩
    rw [hblock.tasks, if_neg hi] at hv
    rw [hblock.delayQueue] at hm
    have hm : i ∈ s.delayQueue := by simpa [hi] using hm
    obtain ⟨w, hw, hwb⟩ := (h.mem_delay i).1 hm
    obtain rfl : v = w := Option.some.inj (hv.symm.trans hw)
    exact UInt64.not_lt.2 hle (hblock.counters.tickCount ▸ h.delay_future i v hw hwb)
  rw [hsched]
  by_cases hii : i = id
  · subst hii
    have hu : s.task? i = some u := hsame.symm.trans hd.picked
    by_cases hr : u.Runnable
    · obtain ⟨f, -, he⟩ := hd.entered hr
      refine .inr ⟨by rw [he]; rfl, u, hu, by rw [hd.tasks, if_pos rfl, if_pos hr]⟩
    · left; rw [hd.tasks, if_pos rfl, if_neg hr, hu]
  · left
    rw [hd.tasks, if_neg hii, hsame]
    cases hv : s.task? i with
    | none => rfl
    | some v =>
      rw [Option.map_some, v.relinquish_of_ne fun hr => hi (h.running_current i v hv hr)]

/-! ### Fresh ids -/

/-- Ids go on being handed out in order, until they run out. -/
theorem Numbered.perform {created : ℕ} (hn : s.Numbered created) (h : s.Settled) (o : Call Fn)
    (hlimit : o.countCreated created < 2 ^ 32 - 1) :
    (s.perform o).state.Numbered (o.countCreated created) := by
  have hnext := (h.perform_counters o).1
  have hle : created ≤ o.countCreated created ∨ o = .reset := by
    cases o with
    | createTask _ f _ _ => cases f <;> simp [Call.countCreated]
    | _ => simp [Call.countCreated]
  refine ⟨?_, ?_⟩
  · rw [hnext]
    have hn := hn.next
    cases o with
    | createTask _ f _ _ =>
      cases f with
      | none => exact hn
      | some f =>
        simp only [Call.countCreated] at hlimit ⊢
        -- below the limit the id does not wrap
        rw [UInt32.toNat_add, hn]
        simp only [UInt32.reduceToNat]
        omega
    | reset => rfl
    | _ => exact hn
  · intro id t ht
    have hfrom := h.perform_origin o ht
    generalize t.signature = σ at hfrom
    cases hfrom with
    | kept u hu =>
      rcases hle with hle | rfl
      · exact (hn.used id u hu).trans hle
      · exact numbered_init.used id t ht
    | created name f p n ho hi =>
      rw [ho, hi, hn.next]
      exact le_rfl
    | idle ho hi => simp [hi, idleTaskId]

end Scheduler

end Rtos

end EFS
