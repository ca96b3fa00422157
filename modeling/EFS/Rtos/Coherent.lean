import EFS.Rtos.Queues

/-!
# Coherence of tasks and queues

The state of a task and its place in the queues are stored apart: a runnable task (ready or
running) belongs in the ready vector of its priority, a blocked task in the delay queue, a
suspended task in neither.  `Scheduler.QueuesCoherent` says that they agree for all tasks, and
`Scheduler.Coherent` adds the current task: it exists, and no other task is running.

The operations are built from a few updates that touch one task each.  Whatever the update,
`QueuesCoherent.touch` leaves only that task to be checked.  `Scheduler.Settled` is what holds at
operation boundaries: besides coherence, no delay that is over is still in the delay queue, and
the current task is not blocked.
-/

namespace EFS

namespace Rtos

namespace Scheduler

variable {Fn : Type} {s s' : Scheduler Fn} {T : TaskId} {t : Task Fn}

/-- Tasks and queues agree. -/
structure QueuesCoherent (s : Scheduler Fn) : Prop where
  /-- The idle task exists, runs its own loop at the lowest priority and is never delayed. -/
  idle : ∃ t, s.task? idleTaskId = some t ∧ t.priority = idleTaskPriority ∧
    t.function = some .idleLoop ∧ t.state ≠ .blocked
  /-- `m_tasks` holds no null pointer. -/
  nonnull : ∀ id, s.tasks.lookup id ≠ some none
  /-- A task is stored under its own id, has a function and is not terminated. -/
  task_ok : ∀ id t, s.task? id = some t → t.id = id ∧ t.function ≠ none ∧ t.state ≠ .terminated
  /-- No ready vector is empty. -/
  noEmptyVec : s.NoEmptyVec
  /-- No ready vector holds a task twice. -/
  ready_nodup : ∀ p, (s.readyVec p).Nodup
  /-- The ready vector of `p` holds the runnable tasks of priority `p`. -/
  mem_ready : ∀ id p, id ∈ s.readyVec p ↔ ∃ t, s.task? id = some t ∧ t.priority = p ∧ t.Runnable
  /-- The delay queue holds no task twice. -/
  delay_nodup : s.delayQueue.Nodup
  /-- The delay queue holds the blocked tasks. -/
  mem_delay : ∀ id, id ∈ s.delayQueue ↔ ∃ t, s.task? id = some t ∧ t.state = .blocked

/-- Tasks, queues and the current task agree. -/
structure Coherent (s : Scheduler Fn) : Prop extends QueuesCoherent s where
  /-- The current task exists. -/
  current : ∃ t, s.task? s.currentTaskId = some t
  /-- Only the current task may be running. -/
  running_current : ∀ id t, s.task? id = some t → t.state = .running → id = s.currentTaskId

/-- What holds whenever control is outside of the scheduler. -/
structure Settled (s : Scheduler Fn) : Prop extends Coherent s where
  /-- A delayed task is still waiting for its tick. -/
  delay_future : ∀ id t, s.task? id = some t → t.state = .blocked →
    s.tickCount < t.delayUntilTick
  /-- The current task is not blocked. -/
  current_not_blocked : ∀ t, s.task? s.currentTaskId = some t → t.state ≠ .blocked

/-! ### Updates of one task -/

/-- `s'` differs from `s` in the task `T` and its places in the queues at most. -/
structure Touches (T : TaskId) (s s' : Scheduler Fn) : Prop where
  task? : ∀ i, i ≠ T → s'.task? i = s.task? i
  lookup : ∀ i, i ≠ T → s'.tasks.lookup i = s.tasks.lookup i
  ready : ∀ i p, i ≠ T → (i ∈ s'.readyVec p ↔ i ∈ s.readyVec p)
  delay : ∀ i, i ≠ T → (i ∈ s'.delayQueue ↔ i ∈ s.delayQueue)

/-- The task `T` agrees with the queues. -/
structure Placed (s : Scheduler Fn) (T : TaskId) : Prop where
  idle : T = idleTaskId → ∃ t, s.task? T = some t ∧ t.priority = idleTaskPriority ∧
    t.function = some .idleLoop ∧ t.state ≠ .blocked
  nonnull : s.tasks.lookup T ≠ some none
  task_ok : ∀ t, s.task? T = some t → t.id = T ∧ t.function ≠ none ∧ t.state ≠ .terminated
  mem_ready : ∀ p, T ∈ s.readyVec p ↔ ∃ t, s.task? T = some t ∧ t.priority = p ∧ t.Runnable
  mem_delay : T ∈ s.delayQueue ↔ ∃ t, s.task? T = some t ∧ t.state = .blocked

/-- **Frame rule.**  An update that touches one task and leaves it where it belongs keeps
tasks and queues coherent. -/
theorem QueuesCoherent.touch (h : s.QueuesCoherent) (hs : Touches T s s') (hT : s'.Placed T)
    (hne : s'.NoEmptyVec) (hr : ∀ p, (s'.readyVec p).Nodup) (hd : s'.delayQueue.Nodup) :
    s'.QueuesCoherent where
  idle := by
    by_cases hi : idleTaskId = T
    · exact hi ▸ hT.idle hi.symm
    · rw [hs.task? _ hi]; exact h.idle
  nonnull id := by
    by_cases hi : id = T
    · exact hi ▸ hT.nonnull
    · rw [hs.lookup _ hi]; exact h.nonnull id
  task_ok id t := by
    by_cases hi : id = T
    · exact hi ▸ hT.task_ok t
    · rw [hs.task? _ hi]; exact h.task_ok id t
  noEmptyVec := hne
  ready_nodup := hr
  mem_ready id p := by
    by_cases hi : id = T
    · exact hi ▸ hT.mem_ready p
    · rw [hs.task? _ hi, hs.ready _ _ hi]; exact h.mem_ready id p
  delay_nodup := hd
  mem_delay id := by
    by_cases hi : id = T
    · exact hi ▸ hT.mem_delay
    · rw [hs.task? _ hi, hs.delay _ hi]; exact h.mem_delay id

theorem QueuesCoherent.reorder (h : s.QueuesCoherent)
    {rq : OrderedMap UInt8 (List TaskId) (· > ·)}
    (hne : NoEmptyVec { s with readyQueue := rq })
    (hp : ∀ p, (readyVec { s with readyQueue := rq } p).Perm (s.readyVec p)) :
    QueuesCoherent { s with readyQueue := rq } where
  idle := h.idle
  nonnull := h.nonnull
  task_ok := h.task_ok
  noEmptyVec := hne
  ready_nodup p := (hp p).nodup_iff.2 (h.ready_nodup p)
  mem_ready id p := ((hp p).mem_iff).trans (h.mem_ready id p)
  delay_nodup := h.delay_nodup
  mem_delay := h.mem_delay

theorem QueuesCoherent.setCurrent (h : s.QueuesCoherent) (id : TaskId) :
    QueuesCoherent { s with currentTaskId := id } :=
  ⟨h.idle, h.nonnull, h.task_ok, h.noEmptyVec, h.ready_nodup, h.mem_ready, h.delay_nodup,
    h.mem_delay⟩

theorem QueuesCoherent.not_mem_ready (h : s.QueuesCoherent)
    (hT : ∀ t, s.task? T = some t → ¬ t.Runnable) (p : UInt8) : T ∉ s.readyVec p := by
  rw [h.mem_ready]
  rintro ⟨t, ht, -, hr⟩
  exact hT t ht hr

theorem QueuesCoherent.not_mem_delay (h : s.QueuesCoherent)
    (hT : ∀ t, s.task? T = some t → t.state ≠ .blocked) : T ∉ s.delayQueue := by
  rw [h.mem_delay]
  rintro ⟨t, ht, hb⟩
  exact hT t ht hb

theorem QueuesCoherent.eq_priority_of_mem (h : s.QueuesCoherent) (ht : s.task? T = some t)
    {p : UInt8} (hm : T ∈ s.readyVec p) : p = t.priority := by
  obtain ⟨t', ht', rfl, -⟩ := (h.mem_ready T p).1 hm
  rw [Option.some.inj (ht.symm.trans ht')]

/-- A task that was in no ready vector becomes ready and joins the vector of its priority, and
leaves the delay queue. -/
theorem QueuesCoherent.makeReady (h : s.QueuesCoherent)
    (hT : ∀ t, s.task? T = some t → ¬ t.Runnable) (hst : t.state = .ready) (hid : t.id = T)
    (hf : t.function ≠ none) (hidle : T = idleTaskId → t.priority = idleTaskPriority ∧
      t.function = some .idleLoop)
    {u : Scheduler Fn} (hu : u.tasks = s.tasks) (hq : u.readyQueue = s.readyQueue)
    (hd : u.delayQueue = s.delayQueue.erase T) :
    ((u.setTask T t).addToReadyQueue T).QueuesCoherent := by
  have hself : (u.setTask T t).task? T = some t := by simp
  have htask : ∀ i, u.task? i = s.task? i := fun i => by rw [task?, task?, hu]
  have hvec : ∀ p, u.readyVec p = s.readyVec p := fun p => by rw [readyVec, readyVec, hq]
  have hnot := h.not_mem_ready hT
  -- the task joins the vector of its priority, and no other one changes
  have hready : ∀ p, ((u.setTask T t).addToReadyQueue T).readyVec p =
      if p = t.priority then s.readyVec p ++ [T] else s.readyVec p := by
    intro p
    rw [readyVec_addToReadyQueue hself]
    simp [hvec, hnot p]
  refine h.touch (T := T) ?_ ?_ ?_ ?_ ?_
  · refine ⟨fun i hi => by simp [hi, htask], fun i hi => by simp [lookup_setTask, hi, hu], ?_, ?_⟩
    · intro i p hi
      rw [hready]; split_ifs <;> simp [hi]
    · intro i hi
      simp [hd, List.mem_erase_of_ne hi]
  · refine ⟨?_, by simp [lookup_setTask], ?_, ?_, ?_⟩
    · intro hi
      exact ⟨t, by simp, (hidle hi).1, (hidle hi).2, by simp [hst]⟩
    · rintro t' ht'
      obtain rfl : t = t' := by simpa using ht'
      exact ⟨hid, hf, by simp [hst]⟩
    · intro p
      rw [hready]
      by_cases hp : p = t.priority
      · simp [hp, Task.Runnable, hst]
      · simp [hp, hnot p, Ne.symm hp]
    · simp [hd, h.delay_nodup.not_mem_erase, hst]
  · refine NoEmptyVec.addToReadyQueue (s := u.setTask T t) ?_
    intro p
    rw [setTask_readyQueue, hq]; exact h.noEmptyVec p
  · intro p
    rw [hready]
    split_ifs
    · exact List.Nodup.append (h.ready_nodup p) (List.nodup_singleton T)
        (by simpa using hnot p)
    · exact h.ready_nodup p
  · simpa [hd] using h.delay_nodup.erase T

/-- A task leaves the ready vectors and goes to a state that is neither runnable nor
terminated; blocked tasks, and only those, join the delay queue. -/
theorem QueuesCoherent.makeWaiting (h : s.QueuesCoherent) (t' : Task Fn)
    (hT : s.task? T = some t) (hid : t'.id = t.id) (hf : t'.function = t.function)
    (hp : t'.priority = t.priority) (hr : ¬ t'.Runnable) (hte : t'.state ≠ .terminated)
    (hidle : T = idleTaskId → t'.state ≠ .blocked) {u : Scheduler Fn}
    (hu : u.tasks = ((s.setTask T t').removeFromReadyQueue T).tasks)
    (hq : u.readyQueue = ((s.setTask T t').removeFromReadyQueue T).readyQueue)
    (hd : u.delayQueue = s.delayQueue.erase T ++ if t'.state = .blocked then [T] else []) :
    u.QueuesCoherent := by
  have hself : (s.setTask T t').task? T = some t' := by simp
  -- the task leaves the vector of its priority, the only one that it can be in
  have hready : ∀ p, u.readyVec p = (s.readyVec p).erase T := by
    intro p
    rw [show u.readyVec p = ((s.setTask T t').removeFromReadyQueue T).readyVec p by
      rw [readyVec, readyVec, hq], readyVec_removeFromReadyQueue hself, setTask_readyVec]
    split_ifs with h'
    · rfl
    · refine (List.erase_of_not_mem fun hm => h' ?_).symm
      rw [hp]; exact h.eq_priority_of_mem hT hm
  have hnot : T ∉ s.delayQueue.erase T := h.delay_nodup.not_mem_erase
  obtain ⟨h1, h2, -⟩ := h.task_ok T t hT
  have htask : ∀ i, u.task? i = if i = T then some t' else s.task? i := fun i => by
    rw [show u.task? i = ((s.setTask T t').removeFromReadyQueue T).task? i by
      rw [task?, task?, hu]]
    simp
  have hlookup : ∀ i, u.tasks.lookup i = if i = T then some (some t') else s.tasks.lookup i :=
    fun i => by rw [hu, removeFromReadyQueue_tasks, lookup_setTask]
  refine h.touch (T := T) ?_ ?_ ?_ ?_ ?_
  · refine ⟨fun i hi => by simp [htask, hi], fun i hi => by simp [hlookup, hi],
      fun i p hi => by rw [hready, List.mem_erase_of_ne hi], ?_⟩
    intro i hi
    rw [hd, List.mem_append, List.mem_erase_of_ne hi]
    split_ifs <;> simp [hi]
  · refine ⟨?_, by simp [hlookup], ?_, ?_, ?_⟩
    · intro hi
      obtain ⟨v, hv, hup, huf, -⟩ := h.idle
      rw [← hi, hT, Option.some.injEq] at hv
      subst hv
      exact ⟨t', by simp [htask], hp.trans hup, hf.trans huf, hidle hi⟩
    · intro v hv
      obtain rfl : t' = v := by simpa [htask] using hv
      exact ⟨hid.trans h1, by rwa [hf], hte⟩
    · intro p
      simp [hready, (h.ready_nodup p).not_mem_erase, htask, hr]
    · rw [hd, List.mem_append]
      split_ifs with hb <;> simp [hb, hnot, htask]
  · intro p
    rw [hq]
    exact NoEmptyVec.removeFromReadyQueue (s := s.setTask T t') h.noEmptyVec p
  · intro p; rw [hready]; exact (h.ready_nodup p).erase T
  · rw [hd]
    refine List.Nodup.append (h.delay_nodup.erase T) (by split_ifs <;> simp) ?_
    split_ifs <;> simp [hnot]

@[simp] theorem removeTask_delayQueue :
    (s.removeTask T).delayQueue = s.delayQueue.erase T := by
  simp [Scheduler.removeTask]

theorem removeTask_lookup (i : TaskId) : (s.removeTask T).tasks.lookup i =
    if i = T then none else s.tasks.lookup i := by
  simp only [Scheduler.removeTask, removeFromReadyQueue_tasks]
  split_ifs with hi
  · subst hi; simp
  · exact AList.lookup_erase_ne hi

@[simp] theorem removeTask_task? (i : TaskId) :
    (s.removeTask T).task? i = if i = T then none else s.task? i := by
  rw [task?, removeTask_lookup]; split_ifs <;> rfl

/-- A task is taken out of all containers. -/
theorem QueuesCoherent.removeTask (h : s.QueuesCoherent) (hT : s.task? T = some t)
    (hidle : T ≠ idleTaskId) : (s.removeTask T).QueuesCoherent := by
  have hready : ∀ p, (s.removeTask T).readyVec p = (s.readyVec p).erase T := by
    intro p
    change (s.removeFromReadyQueue T).readyVec p = _
    rw [readyVec_removeFromReadyQueue hT]
    split_ifs with h'
    · rfl
    · exact (List.erase_of_not_mem fun hm => h' (h.eq_priority_of_mem hT hm)).symm
  refine h.touch (T := T) ?_ ?_ ?_ ?_ ?_
  · exact ⟨fun i hi => by simp [hi], fun i hi => by simp [removeTask_lookup, hi],
      fun i p hi => by rw [hready, List.mem_erase_of_ne hi],
      fun i hi => by simp [List.mem_erase_of_ne hi]⟩
  · refine ⟨fun hi => absurd hi hidle, by simp [removeTask_lookup], fun u hu => by simp at hu,
      ?_, ?_⟩
    · intro p
      simp [hready, (h.ready_nodup p).not_mem_erase]
    · simp [h.delay_nodup.not_mem_erase]
  · exact NoEmptyVec.removeFromReadyQueue h.noEmptyVec
  · intro p; rw [hready]; exact (h.ready_nodup p).erase T
  · simpa using h.delay_nodup.erase T

/-- A runnable task changes between ready and running. -/
theorem QueuesCoherent.setRunnable (h : s.QueuesCoherent) (hT : s.task? T = some t)
    (hr : t.Runnable) {t' : Task Fn} (hid : t'.id = t.id) (hf : t'.function = t.function)
    (hp : t'.priority = t.priority) (hr' : t'.Runnable) : (s.setTask T t').QueuesCoherent := by
  obtain ⟨h1, h2, -⟩ := h.task_ok T t hT
  have hnb : ∀ {u : Task Fn}, u.Runnable → u.state ≠ .blocked ∧ u.state ≠ .terminated := by
    rintro u (hu | hu) <;> simp [hu]
  refine h.touch (T := T) ?_ ?_ h.noEmptyVec h.ready_nodup h.delay_nodup
  · exact ⟨fun i hi => by simp [hi], fun i hi => by simp [lookup_setTask, hi],
      fun _ _ _ => Iff.rfl, fun _ _ => Iff.rfl⟩
  · refine ⟨?_, by simp [lookup_setTask], ?_, ?_, ?_⟩
    · intro hi
      obtain ⟨u, hu, hup, huf, -⟩ := h.idle
      rw [← hi, hT, Option.some.injEq] at hu
      subst hu
      exact ⟨t', by simp, hp.trans hup, hf.trans huf, (hnb hr').1⟩
    · intro u hu
      obtain rfl : t' = u := by simpa using hu
      exact ⟨hid.trans h1, by rwa [hf], (hnb hr').2⟩
    · intro p
      rw [setTask_readyVec, h.mem_ready, hT]
      simp [hp, hr, hr']
    · rw [setTask_delayQueue, h.mem_delay, hT]
      simp [(hnb hr).1, (hnb hr').1]

end Scheduler

end Rtos

end EFS
