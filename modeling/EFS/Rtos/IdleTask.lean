import EFS.Rtos.Machine

/-!
# When the idle task runs

A scheduling decision should execute the idle task only if nothing else can be executed, and
otherwise a task of the highest priority (`HighestNonIdle`).

The idle task shares the vector of priority 0 with the tasks that were created with priority 0,
and takes its turns in it.  `executes_highest_iff` gives the exact condition, in terms of the
state in which `schedule()` is called: some other task of a higher priority can be executed, or
the idle task is not at the front of its vector.
-/

namespace EFS

namespace Rtos

variable {Fn : Type}

namespace Scheduler

/-- Some task other than the idle task is ready or running. -/
def NonIdleReady (s : Scheduler Fn) : Prop :=
  ∃ i t, i ≠ idleTaskId ∧ s.task? i = some t ∧ t.Runnable

/-- `id` is a task other than the idle task, of the highest priority among those that are ready
or running. -/
def HighestNonIdle (s : Scheduler Fn) (id : TaskId) : Prop :=
  id ≠ idleTaskId ∧ ∃ t, s.task? id = some t ∧ t.Runnable ∧
    ∀ i u, i ≠ idleTaskId → s.task? i = some u → u.Runnable → u.priority ≤ t.priority

/-- Some other task of a higher priority than the idle task is ready or running, or its delay is
over; or the idle task is not the next one of its vector. -/
def IdleYields (s : Scheduler Fn) : Prop :=
  (∃ i t, i ≠ idleTaskId ∧ s.task? i = some t ∧ idleTaskPriority < t.priority ∧
    (t.Runnable ∨ t.state = .blocked ∧ t.delayUntilTick ≤ s.tickCount)) ∨
  (s.readyVec idleTaskPriority).head? ≠ some idleTaskId

variable {s : Scheduler Fn}

/-! ### Which task is picked -/

/-- The picked task is one of the highest priority other than the idle task, unless the idle task
is at the front of its vector and nothing of a higher priority can be executed. -/
theorem QueuesCoherent.picked_iff (h : s.QueuesCoherent) (hne : s.NonIdleReady) :
    s.HighestNonIdle s.pickNextTask.2 ↔
      (∃ i t, i ≠ idleTaskId ∧ s.task? i = some t ∧ t.Runnable ∧ idleTaskPriority < t.priority) ∨
      (s.readyVec idleTaskPriority).head? ≠ some idleTaskId := by
  have hvec : ∀ {i t}, s.task? i = some t → t.Runnable → s.readyVec t.priority ≠ [] :=
    fun {i t} ht hr hn => by
      have := (h.mem_ready i t.priority).2 ⟨t, ht, rfl, hr⟩
      rw [hn] at this
      cases this
  obtain ⟨j, v, -, hv, hvr⟩ := hne
  obtain ⟨p, id, rest, rq, hp, htop, hpick, -⟩ := pickNextTask_spec (hvec hv hvr)
  obtain ⟨t, ht, htp, htr⟩ := (h.mem_ready id p).1 (by simp [hp])
  have hid : s.pickNextTask.2 = id := congrArg Prod.snd hpick
  -- the idle task has the lowest priority
  have hidle : id = idleTaskId → p = idleTaskPriority := by
    rintro rfl
    obtain ⟨u, hu, hup, -⟩ := h.idle
    rw [← htp, Option.some.inj (ht.symm.trans hu), hup]
  have hhead : p = idleTaskPriority → (s.readyVec idleTaskPriority).head? = some id := by
    rintro rfl
    rw [hp]
    rfl
  rw [hid]
  constructor
  · rintro ⟨hne, -⟩
    by_cases h0 : p = idleTaskPriority
    · exact .inr (by rw [hhead h0]; simpa using hne)
    · exact .inl ⟨id, t, hne, ht, htr, htp ▸ UInt8.pos_iff_ne_zero.2 h0⟩
  · intro hcond
    refine ⟨?_, t, ht, htr, fun i u _ hu hur => htp ▸ htop _ (hvec hu hur)⟩
    intro hi
    rcases hcond with ⟨i, u, -, hu, hur, hpos⟩ | hfront
    · rw [hidle hi] at htop
      exact UInt8.not_le.2 hpos (htop _ (hvec hu hur))
    · exact hfront (hi ▸ hhead (hidle hi))

/-! ### Before and after waking -/

/-- Waking appends to the ready vectors. -/
theorem prefix_wake (ids : List TaskId) (s : Scheduler Fn) (p : UInt8) :
    s.readyVec p <+: (s.wake ids).1.readyVec p := by
  induction ids generalizing s with
  | nil => exact List.prefix_rfl
  | cons id rest ih =>
    by_cases he : s.Expired id
    · obtain ⟨t, ht, hle⟩ := he
      rw [wake_cons_of_expired ht hle]
      refine List.IsPrefix.trans ?_ (ih _)
      have hself : (s.setTask id (t.setState .ready)).task? id = some (t.setState .ready) := by simp
      rw [readyVec_addToReadyQueue hself, setTask_readyVec]
      split_ifs
      · exact List.prefix_append _ _
      · exact List.prefix_rfl
    · rw [wake_cons_of_not_expired he]
      exact ih s

/-- Waking does not bring the idle task to the front of its vector. -/
theorem QueuesCoherent.head?_processDelayQueue (h : s.QueuesCoherent) :
    (s.processDelayQueue.readyVec idleTaskPriority).head? = some idleTaskId ↔
      (s.readyVec idleTaskPriority).head? = some idleTaskId := by
  have hprefix : s.readyVec idleTaskPriority <+: s.processDelayQueue.readyVec idleTaskPriority :=
    prefix_wake s.delayQueue s idleTaskPriority
  obtain ⟨woken, hw⟩ := hprefix
  rw [← hw]
  cases hv : s.readyVec idleTaskPriority with
  | cons i rest => rfl
  | nil =>
    -- the idle task is not delayed, so it is in the vector after waking only if it was before
    refine iff_of_false ?_ (by simp)
    intro hhead
    have hm : idleTaskId ∈ s.processDelayQueue.readyVec idleTaskPriority := by
      rw [← hw, hv]
      exact List.mem_of_mem_head? hhead
    obtain ⟨t, ht, hp, hr⟩ := (h.processDelayQueue.mem_ready _ _).1 hm
    obtain ⟨u, hu, -, -, hub⟩ := h.idle
    have hnd : idleTaskId ∉ s.delayQueue := h.not_mem_delay fun v hv => by
      rwa [Option.some.inj (hv.symm.trans hu)]
    rw [processDelayQueue_task?_of_not s fun hm => hnd hm.1] at ht
    have := (h.mem_ready idleTaskId idleTaskPriority).2 ⟨t, ht, hp, hr⟩
    rw [hv] at this
    cases this

/-- The tasks that can be executed after waking. -/
theorem QueuesCoherent.runnable_processDelayQueue (h : s.QueuesCoherent) {i : TaskId} {p : UInt8} :
    (∃ t, s.processDelayQueue.task? i = some t ∧ t.Runnable ∧ p < t.priority) ↔
      ∃ t, s.task? i = some t ∧ p < t.priority ∧
        (t.Runnable ∨ t.state = .blocked ∧ t.delayUntilTick ≤ s.tickCount) := by
  by_cases he : i ∈ s.delayQueue ∧ s.Expired i
  · obtain ⟨hm, t, ht, hle⟩ := he
    obtain ⟨u, hu, hb⟩ := (h.mem_delay i).1 hm
    obtain rfl : t = u := Option.some.inj (ht.symm.trans hu)
    rw [processDelayQueue_task?_of_expired s hm ht hle, ht]
    simp [Task.Runnable, hb, hle]
  · rw [processDelayQueue_task?_of_not s he]
    refine exists_congr fun t => and_congr_right ?_
    intro ht
    rw [and_comm, and_congr_right_iff]
    intro _
    refine ⟨.inl, fun hr => hr.resolve_right fun hwoken => he ?_⟩
    exact ⟨(h.mem_delay i).2 ⟨t, ht, hwoken.1⟩, t, ht, hwoken.2⟩

/-- The decision of `schedule()`. -/
theorem Coherent.schedule_executes_iff (h : s.Coherent) (hs : s.running = true)
    (hne : s.processDelayQueue.NonIdleReady) :
    (∃ x, s.schedule.frame? = some x ∧ s.processDelayQueue.HighestNonIdle x.task) ↔
      s.IdleYields := by
  obtain ⟨id, t, hd⟩ := h.decision hs
  have hcoh := h.processDelayQueue
  have hexec : (∃ x, s.schedule.frame? = some x ∧ s.processDelayQueue.HighestNonIdle x.task) ↔
      s.processDelayQueue.HighestNonIdle id := by
    constructor
    · rintro ⟨x, hx, hhigh⟩
      obtain ⟨-, -, hcur, -⟩ := h.schedule_entered hx
      rwa [← hcur, hd.currentTaskId] at hhigh
    · intro hhigh
      obtain ⟨u, hu, hur, -⟩ := hhigh.2
      obtain rfl : t = u := Option.some.inj (hd.picked.symm.trans hu)
      obtain ⟨f, -, he⟩ := hd.entered hur
      exact ⟨⟨id, f⟩, by rw [he]; rfl, hhigh⟩
  rw [hexec, hd.id_eq, hcoh.picked_iff hne, IdleYields, Ne, Ne, h.head?_processDelayQueue]
  refine or_congr_left ?_
  exact exists_congr fun i => by
    rw [exists_and_left, exists_and_left]
    exact and_congr_right fun _ => h.runnable_processDelayQueue

theorem Settled.prepare_running (h : s.Settled) {o : Call Fn} (ho : s.Schedules o) :
    (s.prepare o).running = s.running := by
  rcases h.perform_spec o with ⟨-, he⟩ | ⟨hn, -⟩
  · have hcnt := (h.perform_counters o).2.2
    rw [he, (h.prepare_coherent ho).schedule_counters.running] at hcnt
    rw [hcnt]
    cases o with
    | start => exact ho.elim
    | stop => exact ho.elim
    | reset => exact ho.elim
    | _ => rfl
  · exact absurd ho hn

end Scheduler

/-! ### Runs -/

/-- **The idle task yields.**  Whenever an operation of a running scheduler calls `schedule()`, and
another task is ready or running once the expired delays are woken, it executes such a task of
the highest priority if and only if the state in which it calls `schedule()` is as
`IdleYields` says. -/
theorem executes_highest_iff {c : Counted Fn × List (Execution Fn)}
    (h : (freshMachine Fn).Reachable start c) (hs : c.1.sched.running = true) {o : Call Fn}
    (ho : c.1.sched.Schedules o) (hne : (c.1.sched.prepare o).processDelayQueue.NonIdleReady) :
    (∃ x, (c.1.sched.perform o).frame? = some x ∧
      (c.1.sched.prepare o).processDelayQueue.HighestNonIdle x.task) ↔
        (c.1.sched.prepare o).IdleYields := by
  have hset := settled_of_fresh h
  rcases hset.perform_spec o with ⟨-, he⟩ | ⟨hn, -⟩
  · rw [he]
    exact (hset.prepare_coherent ho).schedule_executes_iff ((hset.prepare_running ho).trans hs) hne
  · exact absurd ho hn

/-- A scheduler with one task, of the priority `p`. -/
def oneTask (p : UInt8) : Counted Unit × List (Execution Unit) :=
  (component Unit).after start [.createTask "a" (some ()) p 1024, .start]

theorem executes_highest_iff_oneTask :
    ∃ x, ((oneTask 1).1.sched.perform .schedule).frame? = some x ∧ x.task ≠ idleTaskId := by
  have hr : (freshMachine Unit).Reachable start (oneTask 1) := Reentrant.reachable_after (by decide)
  have hne : ((oneTask 1).1.sched.prepare .schedule).processDelayQueue.NonIdleReady :=
    ⟨1, _, by decide, rfl, .inl rfl⟩
  have hyields : ((oneTask 1).1.sched.prepare .schedule).IdleYields :=
    .inl ⟨1, _, by decide, rfl, by decide, .inl (.inl rfl)⟩
  obtain ⟨x, hx, hhigh⟩ := (executes_highest_iff hr rfl (o := .schedule) trivial hne).2 hyields
  exact ⟨x, hx, hhigh.1⟩

/-- A task of priority 0 is ready, and the idle task is executed. -/
theorem not_executes_highest :
    (machine Unit).Reachable start (oneTask 0) ∧ (oneTask 0).1.sched.running = true ∧
      ((oneTask 0).1.sched.prepare .schedule).processDelayQueue.NonIdleReady ∧
      ¬ ∃ x, ((oneTask 0).1.sched.perform .schedule).frame? = some x ∧
        ((oneTask 0).1.sched.prepare .schedule).processDelayQueue.HighestNonIdle x.task := by
  refine ⟨Reentrant.reachable_after (by decide), rfl, ⟨1, _, by decide, rfl, .inl rfl⟩, ?_⟩
  rintro ⟨x, hx, hidle, -⟩
  have : ((oneTask 0).1.sched.perform .schedule).frame?.map Execution.task = some idleTaskId := by
    decide
  rw [hx, Option.map_some, Option.some.injEq] at this
  exact hidle this

end Rtos

end EFS
