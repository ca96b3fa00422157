import EFS.Rtos.Coherent

/-!
# One scheduling decision

`schedule()` wakes the tasks whose delay is over, picks the front of the vector of the highest
priority, takes the processor from the current task and gives it to the picked one.
`Decision` states all of this at once; `Coherent.settled_schedule` is what it
establishes, also from a state in which the current task has just been taken out of the queues.
-/

namespace EFS

namespace Rtos

/-- A task that no longer has the processor. -/
def Task.relinquish {Fn : Type} (t : Task Fn) : Task Fn :=
  if t.state = .running then t.setState .ready else t

section

variable {Fn : Type} (t : Task Fn)

@[simp] theorem Task.relinquish_id : t.relinquish.id = t.id := by
  unfold relinquish; split_ifs <;> rfl
@[simp] theorem Task.relinquish_function : t.relinquish.function = t.function := by
  unfold relinquish; split_ifs <;> rfl
@[simp] theorem Task.relinquish_priority : t.relinquish.priority = t.priority := by
  unfold relinquish; split_ifs <;> rfl
@[simp] theorem Task.relinquish_delayUntilTick :
    t.relinquish.delayUntilTick = t.delayUntilTick := by
  unfold relinquish; split_ifs <;> rfl
theorem Task.relinquish_of_ne (h : t.state ≠ .running) : t.relinquish = t := by
  simp [relinquish, h]
theorem Task.relinquish_state_ne : t.relinquish.state ≠ .running := by
  unfold relinquish; split_ifs with h <;> simp [h]
@[simp] theorem Task.relinquish_blocked : t.relinquish.state = .blocked ↔ t.state = .blocked := by
  unfold relinquish; split_ifs with h <;> simp [h]
@[simp] theorem Task.relinquish_runnable : t.relinquish.Runnable ↔ t.Runnable := by
  unfold relinquish Runnable; split_ifs with h <;> simp [h]

end

/-- A task that is given the processor, as `schedule` leaves it. -/
def Task.run {Fn : Type} (t : Task Fn) : Task Fn := (t.setState .running).execute.1

section

variable {Fn : Type} (t : Task Fn)

@[simp] theorem Task.run_id : t.run.id = t.id := by simp [run]
@[simp] theorem Task.run_function : t.run.function = t.function := by simp [run]
@[simp] theorem Task.run_priority : t.run.priority = t.priority := by simp [run]
@[simp] theorem Task.run_state : t.run.state = .running := by simp [run]
@[simp] theorem Task.run_delayUntilTick : t.run.delayUntilTick = t.delayUntilTick := by
  simp [run]

end

namespace Scheduler

variable {Fn : Type} {s : Scheduler Fn}

/-! ### Waking -/

theorem addToReadyQueue_withDelayQueue {id : TaskId} {t : Task Fn} {dq : List TaskId} :
    (setTask { s with delayQueue := dq } id t).addToReadyQueue id =
      { (s.setTask id t).addToReadyQueue id with delayQueue := dq } := by
  simp only [addToReadyQueue, task?_setTask, ↓reduceIte]
  rfl

/-- One turn of the loop of `processDelayQueue`, seen with the delay queue it will leave. -/
theorem QueuesCoherent.wakeOne {pre rest : List TaskId} {id : TaskId} {t : Task Fn}
    (h : QueuesCoherent { s with delayQueue := pre ++ id :: rest }) (ht : s.task? id = some t) :
    QueuesCoherent { (s.setTask id (t.setState .ready)).addToReadyQueue id with
      delayQueue := pre ++ rest } := by
  obtain ⟨t', ht', hb⟩ := (h.mem_delay id).1 (by simp)
  obtain rfl : t = t' := Option.some.inj (ht.symm.trans ht')
  obtain ⟨h1, h2, -⟩ := h.task_ok id t ht
  have hnot : id ∉ pre := fun hm =>
    (List.nodup_append.1 h.delay_nodup).2.2 id hm id List.mem_cons_self rfl
  have := h.makeReady (T := id) (t := t.setState .ready) (u := { s with delayQueue := pre ++ rest })
    (fun u hu hr => ?_) rfl h1 h2 (fun hi => ?_) rfl rfl ?_
  · rwa [addToReadyQueue_withDelayQueue] at this
  · obtain rfl : t = u := Option.some.inj (ht.symm.trans hu)
    rcases hr with hr | hr <;> simp [hb] at hr
  · obtain ⟨u, hu, -, -, hub⟩ := h.idle
    subst hi
    obtain rfl : t = u := Option.some.inj (ht.symm.trans hu)
    exact absurd hb hub
  · rw [List.erase_append_right _ hnot]; simp

theorem QueuesCoherent.wake {ids p : List TaskId} {s : Scheduler Fn}
    (h : QueuesCoherent { s with delayQueue := p ++ ids }) :
    QueuesCoherent { (s.wake ids).1 with delayQueue := p ++ (s.wake ids).2 } := by
  -- `p` are the delays that the loop has kept so far
  induction ids generalizing s p with
  | nil => simpa [Scheduler.wake] using h
  | cons id rest ih =>
    by_cases he : s.Expired id
    · obtain ⟨t, ht, hle⟩ := he
      rw [wake_cons_of_expired ht hle]
      exact ih (h.wakeOne ht)
    · rw [wake_cons_of_not_expired he]
      have := ih (s := s) (p := p ++ [id]) (by simpa using h)
      simpa using this

theorem QueuesCoherent.processDelayQueue (h : s.QueuesCoherent) :
    s.processDelayQueue.QueuesCoherent :=
  QueuesCoherent.wake (p := []) h

theorem QueuesCoherent.processDelayQueue_future (h : s.QueuesCoherent) {id : TaskId}
    {t : Task Fn} (ht : s.processDelayQueue.task? id = some t) (hb : t.state = .blocked) :
    s.tickCount < t.delayUntilTick := by
  have hm := (h.processDelayQueue.mem_delay id).2 ⟨t, ht, hb⟩
  rw [mem_processDelayQueue_delayQueue] at hm
  have ht' : s.task? id = some t := by
    rw [← ht, processDelayQueue_task?_of_not _ fun h' => hm.2 h'.2]
  exact UInt64.not_le.1 fun hle => hm.2 ⟨t, ht', hle⟩

theorem processDelayQueue_running_of {id : TaskId} {t : Task Fn}
    (ht : s.processDelayQueue.task? id = some t) (hr : t.state = .running) :
    s.task? id = some t := by
  by_cases he : id ∈ s.delayQueue ∧ s.Expired id
  · obtain ⟨hm, u, hu, hle⟩ := he
    rw [processDelayQueue_task?_of_expired _ hm hu hle, Option.some.injEq] at ht
    rw [← ht] at hr
    simp at hr
  · rwa [processDelayQueue_task?_of_not _ he] at ht

/-! ### Taking and giving the processor -/

/-- `preempt` takes the processor from every task but the next one. -/
theorem preempt_task? (hrun : ∀ id t, s.task? id = some t → t.state = .running →
    id = s.currentTaskId) (nextId i : TaskId) : (s.preempt nextId).task? i =
      if i = nextId then s.task? i else (s.task? i).map Task.relinquish := by
  -- only the current task can be running, so relinquishing changes no other
  have hrel : ∀ i, i ≠ s.currentTaskId → (s.task? i).map Task.relinquish = s.task? i := by
    intro i hi
    cases ht : s.task? i with
    | none => rfl
    | some t => simp [t.relinquish_of_ne fun hr => hi (hrun i t ht hr)]
  unfold preempt
  by_cases hc : s.currentTaskId = nextId
  · simp only [hc, ne_eq, not_true, false_and, ↓reduceIte]
    split_ifs with hi
    · rfl
    · exact (hrel i (hc ▸ hi)).symm
  · cases ht : s.task? s.currentTaskId with
    | none =>
      have : (s.task? i).map Task.relinquish = s.task? i := by
        by_cases hi : i = s.currentTaskId
        · simp [hi, ht]
        · exact hrel i hi
      simp [this]
    | some t =>
      simp only [ne_eq, hc, not_false_eq_true, s.mem_tasks_of_task? ht, and_self, ↓reduceIte]
      by_cases hi : i = s.currentTaskId
      · subst hi
        split_ifs with hr <;> simp [ht, Task.relinquish, hr]
      · split_ifs <;> simp [hi, hrel i hi]

theorem preempt_eq (id : TaskId) : ∃ tasks, s.preempt id = { s with tasks } := by
  unfold preempt
  split_ifs
  · split
    · split_ifs
      · exact ⟨_, rfl⟩
      · exact ⟨s.tasks, rfl⟩
    · exact ⟨s.tasks, rfl⟩
  · exact ⟨s.tasks, rfl⟩

theorem QueuesCoherent.preempt (h : s.QueuesCoherent) (nextId : TaskId) :
    (s.preempt nextId).QueuesCoherent := by
  unfold Scheduler.preempt
  split_ifs
  · split
    · rename_i t ht
      split_ifs with hr
      · exact h.setRunnable ht (.inr hr) rfl rfl rfl (.inl rfl)
      · exact h
    · exact h
  · exact h

theorem QueuesCoherent.picked (h : s.QueuesCoherent) :
    ∃ t, s.task? s.pickNextTask.2 = some t ∧ (t.Runnable ∨ s.pickNextTask.2 = idleTaskId) := by
  by_cases hv : ∀ p, s.readyVec p = []
  · -- nothing is ready: the idle task is picked, in whatever state it is
    obtain ⟨t, ht, -⟩ := h.idle
    rw [pickNextTask_idle hv]
    exact ⟨t, ht, .inr rfl⟩
  · obtain ⟨q, hq⟩ := not_forall.1 hv
    obtain ⟨p, id, rest, rq, hp, -, hpick, -⟩ := pickNextTask_spec hq
    obtain ⟨t, ht, -, hr⟩ := (h.mem_ready id p).1 (by simp [hp])
    rw [hpick]
    exact ⟨t, ht, .inl hr⟩

/-- `pickNextTask` only reorders a ready vector. -/
theorem pickNextTask_perm (hne : s.NoEmptyVec) :
    ∃ rq : OrderedMap UInt8 (List TaskId) (· > ·),
      s.pickNextTask.1 = { s with readyQueue := rq } ∧
      NoEmptyVec { s with readyQueue := rq } ∧
      ∀ p, (readyVec { s with readyQueue := rq } p).Perm (s.readyVec p) := by
  by_cases hv : ∀ p, s.readyVec p = []
  · exact ⟨s.readyQueue, by rw [pickNextTask_idle hv], hne, fun p => .refl _⟩
  · obtain ⟨q, hq⟩ := not_forall.1 hv
    obtain ⟨p, id, rest, rq, hp, -, hpick, hrq⟩ := pickNextTask_spec hq
    refine ⟨rq, by rw [hpick], ?_, ?_⟩
    · intro p'
      change rq.find? p' ≠ _
      rw [hrq]
      split_ifs
      · simp
      · exact hne p'
    · intro p'
      change ((rq.find? p').getD []).Perm _
      rw [hrq]
      split_ifs with hp'
      · subst hp'
        rw [hp, Option.getD_some]
        exact List.perm_append_singleton id rest
      · exact .refl _

theorem QueuesCoherent.pickNextTask (h : s.QueuesCoherent) :
    s.pickNextTask.1.QueuesCoherent := by
  obtain ⟨rq, hpick, hne, hp⟩ := pickNextTask_perm h.noEmptyVec
  rw [hpick]
  exact h.reorder hne hp

theorem dispatch_of_runnable {id : TaskId} {t : Task Fn} {f : TaskFunction Fn}
    (ht : s.task? id = some t) (hr : t.Runnable) (hf : t.function = some f) :
    s.dispatch id = .entered (s.setTask id t.run) ⟨id, f⟩ := by
  rw [dispatch, s.subscript_of_task? ht, ht]
  simp [hr, hf, Task.run]

theorem dispatch_of_not_runnable {id : TaskId} {t : Task Fn} (ht : s.task? id = some t)
    (hr : ¬ t.Runnable) : s.dispatch id = .returned s := by
  rw [dispatch, s.subscript_of_task? ht, ht]
  simp [hr]

/-! ### The whole decision -/

/-- What `schedule()` does in a running scheduler: the task `t` with the id `id` is picked after
waking, every other task has relinquished the processor, and `t` is executed if it is runnable. -/
structure Decision (s : Scheduler Fn) (id : TaskId) (t : Task Fn) : Prop where
  id_eq : id = s.processDelayQueue.pickNextTask.2
  picked : s.processDelayQueue.task? id = some t
  runnable : t.Runnable ∨ id = idleTaskId
  counters : SameCounters s s.schedule.state
  currentTaskId : s.schedule.state.currentTaskId = id
  delayQueue : s.schedule.state.delayQueue = s.processDelayQueue.delayQueue
  readyQueue : s.schedule.state.readyQueue = s.processDelayQueue.pickNextTask.1.readyQueue
  coherent : s.schedule.state.QueuesCoherent
  tasks : ∀ i, s.schedule.state.task? i =
    if i = id then some (if t.Runnable then t.run else t)
    else (s.processDelayQueue.task? i).map Task.relinquish
  entered : t.Runnable → ∃ f, t.function = some f ∧
    s.schedule = .entered s.schedule.state ⟨id, f⟩
  returned : ¬ t.Runnable → s.schedule = .returned s.schedule.state

/-- Every scheduling decision is of this form. -/
theorem Coherent.decision (h : s.Coherent) (hs : s.running = true) : ∃ id t, s.Decision id t := by
  set p := s.processDelayQueue with hp
  have hcoh : p.QueuesCoherent := h.processDelayQueue
  obtain ⟨t, ht, hr⟩ := hcoh.picked
  obtain ⟨rq, hpick, -, -⟩ := pickNextTask_perm hcoh.noEmptyVec
  have hrun : ∀ i u, p.task? i = some u → u.state = .running → i = p.currentTaskId := by
    intro i u hu hur
    rw [hp, processDelayQueue_currentTaskId]
    exact h.running_current i u (processDelayQueue_running_of hu hur) hur
  set id := p.pickNextTask.2 with hid
  -- the state in which the picked task is dispatched
  set q : Scheduler Fn := { p.pickNextTask.1.preempt id with currentTaskId := id } with hq
  have hsched : s.schedule = q.dispatch id := by
    simp only [schedule, hs, ↓reduceIte, ← hp, ← hid, ← hq]
  have hqtask : ∀ i, q.task? i = if i = id then p.task? i else (p.task? i).map Task.relinquish := by
    intro i
    change (p.pickNextTask.1.preempt id).task? i = _
    rw [hpick]
    exact preempt_task? (s := { p with readyQueue := rq }) hrun id i
  have hqt : q.task? id = some t := by rw [hqtask]; simpa using ht
  have hqcoh : q.QueuesCoherent := (hcoh.pickNextTask.preempt id).setCurrent id
  obtain ⟨tasks, hpre⟩ := preempt_eq (s := p.pickNextTask.1) id
  have hqcnt : SameCounters s q := by
    rw [hq, hpre, hpick]
    have hcnt := s.processDelayQueue_counters
    exact ⟨hcnt.running, hcnt.tickCount, hcnt.nextTaskId⟩
  have hqdelay : q.delayQueue = p.delayQueue := by rw [hq, hpre, hpick]
  have hqready : q.readyQueue = p.pickNextTask.1.readyQueue := by rw [hq, hpre]
  by_cases htr : t.Runnable
  · obtain ⟨f, hf⟩ := Option.ne_none_iff_exists'.1 (hcoh.task_ok id t ht).2.1
    have hd : s.schedule = .entered (q.setTask id t.run) ⟨id, f⟩ :=
      hsched.trans (dispatch_of_runnable hqt htr hf)
    refine ⟨id, t, hid, ht, hr, ?_, ?_, ?_, ?_, ?_, fun i => ?_, fun _ => ⟨f, hf, ?_⟩,
      fun h => absurd htr h⟩ <;> rw [hd]
    · exact ⟨hqcnt.running, hqcnt.tickCount, hqcnt.nextTaskId⟩
    · rfl
    · exact hqdelay
    · exact hqready
    · exact hqcoh.setRunnable hqt htr (by simp) (by simp) (by simp) (.inr (by simp))
    · rw [Outcome.state_entered, task?_setTask, if_pos htr, hqtask]
      split_ifs <;> rfl
    · rfl
  · have hd : s.schedule = .returned q := hsched.trans (dispatch_of_not_runnable hqt htr)
    refine ⟨id, t, hid, ht, hr, ?_, ?_, ?_, ?_, ?_, fun i => ?_, fun h => absurd h htr,
      fun _ => ?_⟩ <;> rw [hd]
    · exact hqcnt
    · rfl
    · exact hqdelay
    · exact hqready
    · exact hqcoh
    · rw [Outcome.state_returned, if_neg htr, hqtask]
      split_ifs with hi
      · rw [hi, ht]
      · rfl
    · rfl

/-- A scheduling decision settles the scheduler. -/
theorem Coherent.settled_schedule (h : s.Coherent) (hs : s.running = true) :
    s.schedule.state.Settled := by
  obtain ⟨id, t, hd⟩ := h.decision hs
  have hcur := hd.currentTaskId
  have htask := hd.tasks
  have hnb : t.state ≠ .blocked := by
    rcases hd.runnable with hr | hr
    · rcases hr with hr | hr <;> simp [hr]
    · obtain ⟨u, hu, -, -, hub⟩ := h.processDelayQueue.idle
      rw [← hr, hd.picked, Option.some.injEq] at hu
      rwa [hu]
  have hid : s.schedule.state.task? id = some (if t.Runnable then t.run else t) := by
    rw [htask, if_pos rfl]
  refine ⟨⟨hd.coherent, ⟨_, hcur ▸ hid⟩, ?_⟩, ?_, ?_⟩
  · intro i u hu hur
    rw [hcur]
    -- every task but the picked one has relinquished the processor
    by_contra hi
    rw [htask, if_neg hi, Option.map_eq_some_iff] at hu
    obtain ⟨v, -, rfl⟩ := hu
    exact v.relinquish_state_ne hur
  · intro i u hu hub
    rw [htask] at hu
    rw [hd.counters.tickCount]
    by_cases hi : i = id
    · rw [if_pos hi] at hu
      obtain rfl := Option.some.inj hu
      split_ifs at hub with htr
      · simp at hub
      · exact absurd hub hnb
    · rw [if_neg hi] at hu
      obtain ⟨v, hv, rfl⟩ := Option.map_eq_some_iff.1 hu
      rw [Task.relinquish_delayUntilTick]
      exact h.processDelayQueue_future hv (by simpa using hub)
  · intro u hu
    rw [hcur, hid, Option.some.injEq] at hu
    subst hu
    split_ifs
    · simp
    · exact hnb

end Scheduler

end Rtos

end EFS
