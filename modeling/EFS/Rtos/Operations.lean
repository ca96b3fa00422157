import EFS.Rtos.Schedule

/-!
# Every operation keeps the scheduler settled

One lemma for each public operation of the scheduler: called in a settled state, it leaves a
settled state, be it by returning or by entering the function of a task.  `createTask` needs its
next id to be unused; `Numbered` says that it is, as long as fewer than `2 ^ 32 - 1` tasks are
created between two resets.
-/

namespace EFS

namespace Rtos

namespace Scheduler

variable {Fn : Type} {s : Scheduler Fn}

/-- Ids are handed out in order: `created` tasks were created since the last reset, and no id
beyond that is in use. -/
structure Numbered (s : Scheduler Fn) (created : ℕ) : Prop where
  next : s.nextTaskId.toNat = created + 1
  used : ∀ id t, s.task? id = some t → id.toNat ≤ created

/-- A task that the operation creates gets an id that is not in use. -/
def FreshId (s : Scheduler Fn) : Call Fn → Prop
  | .createTask _ (some _) _ _ => s.task? s.nextTaskId = none
  | _ => True

instance (s : Scheduler Fn) : DecidablePred s.FreshId
  | .createTask _ (some _) _ _ => inferInstanceAs (Decidable (s.task? s.nextTaskId = none))
  | .createTask _ none _ _ | .deleteTask _ | .start | .stop | .schedule | .yield | .delay _
  | .tick | .suspendTask _ | .resumeTask _ | .reset => isTrue trivial

/-- Ids that are handed out in order are not in use. -/
theorem Numbered.freshId {created : ℕ} (hn : s.Numbered created) (o : Call Fn) : s.FreshId o := by
  cases o with
  | createTask name function p n =>
    cases function with
    | none => trivial
    | some f =>
      refine Option.eq_none_iff_forall_ne_some.2 ?_
      intro u hu
      have := hn.used _ u hu
      rw [hn.next] at this
      omega
  | _ => trivial

/-! ### Operations that do not schedule -/

theorem task?_init (i : TaskId) : (init : Scheduler Fn).task? i =
    if i = idleTaskId then
      some (.new idleTaskId "IdleTask" (some .idleLoop) idleTaskPriority 512)
    else none := by
  simp only [init, ensureIdleTask, AList.notMem_empty, ↓reduceIte, addToReadyQueue_task?,
    task?_setTask]
  rfl

theorem readyVec_init (p : UInt8) : (init : Scheduler Fn).readyVec p =
    if p = idleTaskPriority then [idleTaskId] else [] := by
  simp only [init, ensureIdleTask, AList.notMem_empty, ↓reduceIte]
  rw [readyVec_addToReadyQueue (by rw [task?_setTask, if_pos rfl])]
  by_cases hp : p = idleTaskPriority <;> simp [hp, Task.new, readyVec]

theorem settled_init : (init : Scheduler Fn).Settled := by
  -- the idle task is the only task, and it is ready
  have hdelay : (init : Scheduler Fn).delayQueue = [] := by
    simp [init, ensureIdleTask]
  have hcur : (init : Scheduler Fn).currentTaskId = idleTaskId := by
    simp [init, ensureIdleTask]
  refine ⟨⟨⟨⟨_, by rw [task?_init, if_pos rfl], rfl, rfl, by simp⟩, fun id => ?_,
    fun id t ht => ?_, ?_, fun p => ?_, fun id p => ?_, ?_, fun id => ?_⟩, ?_, ?_⟩, ?_, ?_⟩
  · simp only [init, ensureIdleTask, AList.notMem_empty, ↓reduceIte, addToReadyQueue_tasks,
      lookup_setTask]
    split_ifs <;> simp
  · rw [task?_init] at ht
    split_ifs at ht with hi
    obtain rfl := Option.some.inj ht
    exact ⟨hi.symm, by simp [Task.new], by simp⟩
  · simp only [init, ensureIdleTask, AList.notMem_empty, ↓reduceIte]
    exact NoEmptyVec.addToReadyQueue fun p => by simp
  · rw [readyVec_init]; split_ifs <;> simp
  · rw [readyVec_init, task?_init]
    by_cases hi : id = idleTaskId
    · by_cases hp : p = idleTaskPriority
      · simp [hi, hp, Task.Runnable, Task.new]
      · simp [hi, hp, Task.new, Ne.symm hp]
    · split_ifs <;> simp [hi]
  · simp [hdelay]
  · rw [hdelay, task?_init]
    by_cases hi : id = idleTaskId <;> simp [hi]
  · rw [hcur, task?_init, if_pos rfl]; exact ⟨_, rfl⟩
  · intro id t ht hr
    rw [task?_init] at ht
    split_ifs at ht
    rw [← Option.some.inj ht] at hr
    simp at hr
  · intro id t ht hb
    rw [task?_init] at ht
    split_ifs at ht
    rw [← Option.some.inj ht] at hb
    simp at hb
  · intro t ht
    rw [hcur, task?_init, if_pos rfl, Option.some.injEq] at ht
    simp [← ht]

theorem numbered_init : (init : Scheduler Fn).Numbered 0 := by
  refine ⟨by simp [init, ensureIdleTask], ?_⟩
  intro id t ht
  rw [task?_init] at ht
  split_ifs at ht with hi
  simp [hi, idleTaskId]

theorem Coherent.ensureIdleTask (h : s.Coherent) : s.ensureIdleTask = s := by
  obtain ⟨t, ht, -⟩ := h.idle
  simp [Scheduler.ensureIdleTask, s.mem_tasks_of_task? ht]

theorem Settled.setRunning (h : s.Settled) (b : Bool) : Settled { s with running := b } :=
  ⟨⟨⟨h.idle, h.nonnull, h.task_ok, h.noEmptyVec, h.ready_nodup, h.mem_ready, h.delay_nodup,
    h.mem_delay⟩, h.current, h.running_current⟩, h.delay_future, h.current_not_blocked⟩

theorem Settled.start (h : s.Settled) : s.start.Settled := by
  rw [Scheduler.start, h.ensureIdleTask]
  exact h.setRunning true

theorem Settled.tick (h : s.Settled) : s.tick.Settled := by
  set u : Scheduler Fn := { s with tickCount := s.tickCount + 1 } with hu
  have hcoh : u.QueuesCoherent :=
    ⟨h.idle, h.nonnull, h.task_ok, h.noEmptyVec, h.ready_nodup, h.mem_ready, h.delay_nodup,
      h.mem_delay⟩
  -- the current task is not blocked, so it is not woken
  have hkeep : s.tick.task? s.currentTaskId = s.task? s.currentTaskId := by
    refine processDelayQueue_task?_of_not u fun hm => ?_
    obtain ⟨t, ht, hb⟩ := (h.mem_delay _).1 hm.1
    exact h.current_not_blocked t ht hb
  have hcur : s.tick.currentTaskId = s.currentTaskId := processDelayQueue_currentTaskId u
  refine ⟨⟨hcoh.processDelayQueue, ?_, ?_⟩, ?_, ?_⟩
  · rw [hcur, hkeep]; exact h.current
  · intro id t ht hr
    rw [hcur]; exact h.running_current id t (processDelayQueue_running_of (s := u) ht hr) hr
  · intro id t ht hb
    change u.processDelayQueue.tickCount < _
    rw [processDelayQueue_tickCount]
    exact hcoh.processDelayQueue_future ht hb
  · rw [hcur, hkeep]; exact h.current_not_blocked

/-- A task that was not runnable becomes ready, without anything else happening. -/
theorem Settled.makeReady (h : s.Settled) {T : TaskId} {t : Task Fn}
    (hT : ∀ u, s.task? T = some u → ¬ u.Runnable ∧ u.state ≠ .blocked) (hst : t.state = .ready)
    (hid : t.id = T) (hf : t.function ≠ none)
    (hidle : T = idleTaskId → t.priority = idleTaskPriority ∧ t.function = some .idleLoop)
    {u : Scheduler Fn} (hu : u.tasks = s.tasks) (hq : u.readyQueue = s.readyQueue)
    (hd : u.delayQueue = s.delayQueue) (hc : u.currentTaskId = s.currentTaskId)
    (htick : u.tickCount = s.tickCount) : ((u.setTask T t).addToReadyQueue T).Settled := by
  have hnd : T ∉ s.delayQueue := h.not_mem_delay fun u hu => (hT u hu).2
  have htask : ∀ i, ((u.setTask T t).addToReadyQueue T).task? i =
      if i = T then some t else s.task? i := fun i => by simp [task?, lookup_setTask, hu]; grind
  refine ⟨⟨h.toQueuesCoherent.makeReady (fun u hu => (hT u hu).1) hst hid hf hidle hu hq ?_,
    ?_, ?_⟩, ?_, ?_⟩
  · rw [hd, List.erase_of_not_mem hnd]
  · simp only [addToReadyQueue_currentTaskId, setTask_currentTaskId, hc, htask]
    split_ifs
    · exact ⟨t, rfl⟩
    · exact h.current
  · intro i v hv hr
    simp only [addToReadyQueue_currentTaskId, setTask_currentTaskId, hc]
    rw [htask] at hv
    split_ifs at hv
    · rw [← Option.some.inj hv, hst] at hr; cases hr
    · exact h.running_current i v hv hr
  · intro i v hv hb
    simp only [addToReadyQueue_tickCount, setTask_tickCount, htick]
    rw [htask] at hv
    split_ifs at hv
    · rw [← Option.some.inj hv, hst] at hb; cases hb
    · exact h.delay_future i v hv hb
  · intro v hv
    simp only [addToReadyQueue_currentTaskId, setTask_currentTaskId, hc] at hv
    rw [htask] at hv
    split_ifs at hv
    · rw [← Option.some.inj hv, hst]; simp
    · exact h.current_not_blocked v hv

theorem Settled.createTask (h : s.Settled) (hfresh : s.task? s.nextTaskId = none)
    {name : String} {f : TaskFunction Fn} {p : UInt8} {n : UInt64} {id : TaskId}
    {s' : Scheduler Fn} (hc : s.createTask name (some f) p n = .ok (id, s')) :
    id = s.nextTaskId ∧ s'.Settled ∧ s'.nextTaskId = s.nextTaskId + 1 ∧
      ∀ i, s'.task? i = if i = id then some (.new id name (some f) p n) else s.task? i := by
  simp only [Scheduler.createTask, Except.ok.injEq, Prod.mk.injEq] at hc
  obtain ⟨rfl, rfl⟩ := hc
  -- the idle task exists, so its id is not the fresh one
  have hidle : s.nextTaskId ≠ idleTaskId := fun he => by
    obtain ⟨u, hu, -⟩ := h.idle
    rw [he, hu] at hfresh
    cases hfresh
  refine ⟨rfl, ?_, by simp, fun i => by simp [task?, lookup_setTask]; grind⟩
  refine h.makeReady (T := s.nextTaskId) ?_ rfl rfl (by simp [Task.new])
    (fun hi => absurd hi hidle) rfl rfl rfl rfl rfl
  intro u hu
  rw [hfresh] at hu
  cases hu

theorem Settled.resumeTask (h : s.Settled) (id : TaskId) : (s.resumeTask id).2.Settled := by
  unfold Scheduler.resumeTask
  split
  · exact h
  · rename_i t ht
    split_ifs with hst
    · obtain ⟨h1, h2, -⟩ := h.task_ok id t ht
      refine h.makeReady (t := t.setState .ready) ?_ rfl h1 h2 ?_
        rfl rfl rfl rfl rfl
      · intro u hu
        obtain rfl : t = u := Option.some.inj (ht.symm.trans hu)
        simp [Task.Runnable, hst]
      · intro hi
        obtain ⟨u, hu, hp, hf, -⟩ := h.idle
        subst hi
        obtain rfl : t = u := Option.some.inj (ht.symm.trans hu)
        exact ⟨hp, hf⟩
    · exact h

/-! ### Operations that end in `schedule()` -/

theorem addToReadyQueue_eq (id : TaskId) :
    s.addToReadyQueue id = { s with readyQueue := (s.addToReadyQueue id).readyQueue } := by
  unfold addToReadyQueue; split <;> rfl

theorem removeFromReadyQueue_eq (id : TaskId) : s.removeFromReadyQueue id =
    { s with readyQueue := (s.removeFromReadyQueue id).readyQueue } := by
  unfold removeFromReadyQueue; repeat' split
  all_goals rfl

/-- `yield` moves the current task to the back of its vector and takes the processor from it;
the tasks and the other vectors stay as they are. -/
theorem Coherent.requeueCurrent (h : s.Coherent) :
    s.requeueCurrent = s ∨ ∃ t, s.task? s.currentTaskId = some t ∧ t.state = .running ∧
      ∃ rq, s.requeueCurrent =
          { s.setTask s.currentTaskId (t.setState .ready) with readyQueue := rq } ∧
        NoEmptyVec { s with readyQueue := rq } ∧
        ∀ p, readyVec { s with readyQueue := rq } p =
          if p = t.priority then (s.readyVec p).erase s.currentTaskId ++ [s.currentTaskId]
          else s.readyVec p := by
  by_cases hc : s.currentTaskId ≠ idleTaskId ∧ s.currentTaskId ∈ s.tasks
  · obtain ⟨t, ht⟩ := h.current
    by_cases hr : t.state = .running
    · refine .inr ⟨t, ht, hr, ?_⟩
      set u := s.setTask s.currentTaskId (t.setState .ready) with hu
      have hut : u.task? s.currentTaskId = some (t.setState .ready) := by simp [hu]
      set v := u.removeFromReadyQueue s.currentTaskId with hv
      have hvt : v.task? s.currentTaskId = some (t.setState .ready) := by simp [hv, hut]
      refine ⟨(v.addToReadyQueue s.currentTaskId).readyQueue, ?_, ?_, ?_⟩
      · rw [Scheduler.requeueCurrent, if_pos hc, ht]
        simp only [hr, ↓reduceIte]
        rw [← hu, ← hv, addToReadyQueue_eq, hv, removeFromReadyQueue_eq]
      · have : v.NoEmptyVec := NoEmptyVec.removeFromReadyQueue (s := u) h.noEmptyVec
        exact this.addToReadyQueue
      · intro p
        -- removed from its vector, and appended to it again
        change (v.addToReadyQueue s.currentTaskId).readyVec p = _
        have hvp : v.readyVec p = if p = t.priority then (s.readyVec p).erase s.currentTaskId
            else s.readyVec p := by
          rw [hv, readyVec_removeFromReadyQueue hut]; simp [hu]
        rw [readyVec_addToReadyQueue hvt, hvp]
        by_cases hp : p = t.priority
        · simp [hp, (h.ready_nodup _).not_mem_erase]
        · simp [hp]
    · left
      rw [Scheduler.requeueCurrent, if_pos hc, ht]
      simp [hr]
  · left
    rw [Scheduler.requeueCurrent, if_neg hc]

theorem Coherent.coherent_requeueCurrent (h : s.Coherent) : s.requeueCurrent.Coherent := by
  rcases h.requeueCurrent with he | ⟨t, ht, hr, rq, he, hne, hvec⟩
  · rwa [he]
  · rw [he]
    have hcoh : (s.setTask s.currentTaskId (t.setState .ready)).QueuesCoherent :=
      h.toQueuesCoherent.setRunnable ht (.inr hr) rfl rfl rfl (.inl rfl)
    refine ⟨hcoh.reorder hne ?_, ⟨t.setState .ready, ?_⟩, ?_⟩
    · intro p
      change (readyVec { s with readyQueue := rq } p).Perm (s.readyVec p)
      rw [hvec]
      split_ifs with hp
      · have hm : s.currentTaskId ∈ s.readyVec p :=
          (h.mem_ready _ p).2 ⟨t, ht, hp.symm, .inr hr⟩
        exact (List.perm_append_singleton _ _).trans (List.perm_cons_erase hm).symm
      · exact .refl _
    · change (s.setTask s.currentTaskId _).task? s.currentTaskId = _
      simp
    · intro i u hu hur
      change (s.setTask s.currentTaskId _).task? i = _ at hu
      rw [task?_setTask] at hu
      split_ifs at hu with hi
      · exact hi
      · exact h.running_current i u hu hur

theorem Settled.schedule (h : s.Settled) : s.schedule.state.Settled := by
  by_cases hs : s.running = true
  · exact h.settled_schedule hs
  · simpa [Scheduler.schedule, hs] using h

theorem Settled.yield (h : s.Settled) : s.yield.state.Settled := by
  by_cases hs : s.running = true
  · rw [Scheduler.yield, if_pos hs]
    refine h.coherent_requeueCurrent.settled_schedule ?_
    rcases h.toCoherent.requeueCurrent with he | ⟨t, -, -, rq, he, -⟩ <;> rw [he] <;> exact hs
  · simpa [Scheduler.yield, hs] using h

theorem blockCurrent_eq {t : Task Fn} (ht : s.task? s.currentTaskId = some t) (n : UInt64) :
    s.blockCurrent n =
      { (s.setTask s.currentTaskId ((t.setState .blocked).setDelayUntilTick
          (s.tickCount + n))).removeFromReadyQueue s.currentTaskId with
        delayQueue := s.delayQueue ++ [s.currentTaskId] } := by
  rw [blockCurrent, ht]
  simp

/-- What `delay` does before it schedules: it blocks the current task `t` and touches no other. -/
structure Blocking (s : Scheduler Fn) (n : UInt64) (t : Task Fn) : Prop where
  current : s.task? s.currentTaskId = some t
  coherent : (s.blockCurrent n).Coherent
  counters : SameCounters s (s.blockCurrent n)
  currentTaskId : (s.blockCurrent n).currentTaskId = s.currentTaskId
  delayQueue : (s.blockCurrent n).delayQueue = s.delayQueue ++ [s.currentTaskId]
  tasks : ∀ i, (s.blockCurrent n).task? i = if i = s.currentTaskId then
    some ((t.setState .blocked).setDelayUntilTick (s.tickCount + n)) else s.task? i

theorem Coherent.blockCurrent (h : s.Coherent) (hb : ∀ t, s.task? s.currentTaskId = some t →
    t.state ≠ .blocked) (hidle : s.currentTaskId ≠ idleTaskId) (n : UInt64) :
    ∃ t, s.Blocking n t := by
  obtain ⟨t, ht⟩ := h.current
  have htask : ∀ i, (s.blockCurrent n).task? i = if i = s.currentTaskId then
      some ((t.setState .blocked).setDelayUntilTick (s.tickCount + n)) else s.task? i := by
    intro i
    rw [blockCurrent_eq ht]
    change (removeFromReadyQueue _ s.currentTaskId).task? i = _
    simp
  have hcur : (s.blockCurrent n).currentTaskId = s.currentTaskId := by
    rw [blockCurrent_eq ht]; simp
  have hnd : s.currentTaskId ∉ s.delayQueue := h.not_mem_delay hb
  refine ⟨t, ht, ⟨?_, ?_, ?_⟩, ?_, hcur, ?_, htask⟩
  · rw [blockCurrent_eq ht]
    refine h.makeWaiting ((t.setState .blocked).setDelayUntilTick (s.tickCount + n)) ht
      rfl rfl rfl (by simp [Task.Runnable]) (by simp) (fun hi => absurd hi hidle) rfl rfl ?_
    simp [List.erase_of_not_mem hnd]
  · rw [hcur, htask, if_pos rfl]; exact ⟨_, rfl⟩
  · intro i u hu hr
    rw [hcur]
    rw [htask] at hu
    split_ifs at hu with hi
    · exact hi
    · exact h.running_current i u hu hr
  · rw [blockCurrent_eq ht]
    exact ⟨by simp, by simp, by simp⟩
  · rw [blockCurrent_eq ht]

theorem Settled.delay (h : s.Settled) (n : UInt64) : (s.delay n).state.Settled := by
  unfold Scheduler.delay
  split_ifs with hc
  · exact h
  · simp only [not_or, Bool.not_eq_true, Bool.not_eq_false] at hc
    obtain ⟨t, hblock⟩ := h.blockCurrent h.current_not_blocked hc.2 n
    exact hblock.coherent.settled_schedule (hblock.counters.running.trans (by simpa using hc.1))

/-- What `suspendTask` does before it schedules: it takes the task `t` out of the queues. -/
structure Parking (s : Scheduler Fn) (id : TaskId) (t : Task Fn) : Prop where
  coherent : (s.parkTask id t).Coherent
  counters : SameCounters s (s.parkTask id t)
  currentTaskId : (s.parkTask id t).currentTaskId = s.currentTaskId
  delayQueue : (s.parkTask id t).delayQueue = s.delayQueue.erase id
  tasks : ∀ i, (s.parkTask id t).task? i =
    if i = id then some (t.setState .suspended) else s.task? i

theorem Coherent.parkTask (h : s.Coherent) {id : TaskId} {t : Task Fn}
    (ht : s.task? id = some t) : s.Parking id t := by
  have htask : ∀ i, (s.parkTask id t).task? i =
      if i = id then some (t.setState .suspended) else s.task? i := fun i => by
    change (removeFromReadyQueue _ id).task? i = _
    simp
  have hcur : (s.parkTask id t).currentTaskId = s.currentTaskId := by
    simp [Scheduler.parkTask]
  refine ⟨⟨?_, ?_, ?_⟩, ⟨by simp [Scheduler.parkTask],
    by simp [Scheduler.parkTask], by simp [Scheduler.parkTask]⟩, hcur,
    by simp [Scheduler.parkTask], htask⟩
  · exact h.makeWaiting (t.setState .suspended) ht rfl rfl rfl (by simp [Task.Runnable])
      (by simp) (fun _ => by simp) rfl rfl (by simp [Scheduler.parkTask])
  · rw [hcur, htask]
    split_ifs
    · exact ⟨_, rfl⟩
    · exact h.current
  · intro i u hu hr
    rw [hcur]
    rw [htask] at hu
    split_ifs at hu
    · rw [← Option.some.inj hu] at hr; simp at hr
    · exact h.running_current i u hu hr

theorem Settled.parkTask (h : s.Settled) {id : TaskId} {t : Task Fn}
    (ht : s.task? id = some t) : (s.parkTask id t).Settled := by
  have hpark := h.toCoherent.parkTask ht
  refine ⟨hpark.coherent, ?_, ?_⟩
  · intro i u hu hb
    rw [hpark.counters.tickCount]
    rw [hpark.tasks] at hu
    split_ifs at hu
    · rw [← Option.some.inj hu] at hb; simp at hb
    · exact h.delay_future i u hu hb
  · intro u hu
    rw [hpark.currentTaskId, hpark.tasks] at hu
    split_ifs at hu
    · rw [← Option.some.inj hu]; simp
    · exact h.current_not_blocked u hu

theorem Settled.suspendTask (h : s.Settled) (id : TaskId) :
    (s.suspendTask id).2.state.Settled := by
  unfold Scheduler.suspendTask
  split
  · exact h
  · rename_i t ht
    split_ifs
    · exact (h.parkTask ht).schedule
    · exact h.parkTask ht

/-- `deleteTask` takes a task out of all containers; if it was the current one, the idle task
becomes current. -/
theorem Settled.removeTask (h : s.Settled) {id : TaskId} {t : Task Fn}
    (ht : s.task? id = some t) (hidle : id ≠ idleTaskId) (cur : TaskId)
    (hcur : cur = if s.currentTaskId = id then idleTaskId else s.currentTaskId) :
    Settled { s.removeTask id with currentTaskId := cur } := by
  have htask : ∀ i, task? { s.removeTask id with currentTaskId := cur } i =
      if i = id then none else s.task? i := fun i => by
    change (s.removeTask id).task? i = _
    simp
  have hcuri : cur ≠ id := by
    rw [hcur]
    split_ifs with hc
    · exact Ne.symm hidle
    · exact hc
  refine ⟨⟨(h.toQueuesCoherent.removeTask ht hidle).setCurrent cur, ?_, ?_⟩, ?_, ?_⟩
  · rw [htask, if_neg hcuri, hcur]
    split_ifs
    · obtain ⟨u, hu, -⟩ := h.idle
      exact ⟨u, hu⟩
    · exact h.current
  · intro i u hu hr
    rw [htask] at hu
    split_ifs at hu with hi
    have := h.running_current i u hu hr
    change i = cur
    rw [hcur, if_neg fun hc => hi (this.trans hc)]
    exact this
  · intro i u hu hb
    rw [htask] at hu
    split_ifs at hu
    have htick : (s.removeTask id).tickCount = s.tickCount := by simp [Scheduler.removeTask]
    change (s.removeTask id).tickCount < _
    rw [htick]
    exact h.delay_future i u hu hb
  · intro u hu
    rw [htask, if_neg hcuri, hcur] at hu
    split_ifs at hu
    · -- the idle task takes over, and it is never blocked
      obtain ⟨v, hv, -, -, hvb⟩ := h.idle
      rwa [Option.some.inj (hu.symm.trans hv)]
    · exact h.current_not_blocked u hu

theorem Settled.deleteTask (h : s.Settled) (id : TaskId) :
    (s.deleteTask id).2.state.Settled := by
  unfold Scheduler.deleteTask
  split_ifs with hi hn hc
  · exact h
  · exact h
  · obtain ⟨t, ht⟩ := Option.ne_none_iff_exists'.1 hn
    exact (h.removeTask ht hi _ (by rw [if_pos hc])).schedule
  · obtain ⟨t, ht⟩ := Option.ne_none_iff_exists'.1 hn
    have hcur : s.currentTaskId = (s.removeTask id).currentTaskId := by
      simp [Scheduler.removeTask]
    have := h.removeTask ht hi s.currentTaskId (by rw [if_neg hc])
    rwa [hcur] at this

/-- **Step lemma.**  Every operation whose new task, if it creates one, gets an unused id keeps
the scheduler settled. -/
theorem Settled.perform (h : s.Settled) (o : Call Fn) (hfresh : s.FreshId o) :
    (s.perform o).state.Settled := by
  cases o with
  | createTask name function priority stackSize =>
    cases function with
    | none => exact h
    | some f =>
      have hc : s.createTask name (some (.user f)) priority stackSize = .ok (s.nextTaskId, _) := rfl
      exact (h.createTask hfresh hc).2.1
  | deleteTask id => exact h.deleteTask id
  | start => exact h.start
  | stop => exact h.setRunning false
  | schedule => exact h.schedule
  | yield => exact h.yield
  | delay n => exact h.delay n
  | tick => exact h.tick
  | suspendTask id => exact h.suspendTask id
  | resumeTask id => exact h.resumeTask id
  | reset => exact settled_init

end Scheduler

end Rtos

end EFS
