import EFS.LTS.Simulation
import EFS.Rtos.Delay
import EFS.Rtos.Roster

/-!
# The scheduler refines its roster

Every operation of a settled scheduler does to the roster that its containers stand for what
`Roster.perform` says, and executes the same function (`Settled.roster_perform`).  As the invariant
of all runs says that the scheduler is settled, its runs are those of the roster
(`run_roster_iff`), and what `getTask` shows of a task is where it stands
(`Settled.state?_roster`).

The map of ready vectors stands for one line: `readyIds_eq` reduces a statement about the line to
one about the vector of each priority, which the lemmas on the queue operations speak about.
-/

namespace EFS

namespace Rtos

variable {Fn : Type}

@[simp] theorem Task.profile_setState (t : Task Fn) (st : TaskState) :
    (t.setState st).profile = t.profile := rfl

theorem Task.profile_of_signature {t u : Task Fn} (h : t.signature = u.signature) :
    t.profile = u.profile := by
  obtain ⟨hf, hp⟩ := Prod.mk.inj h
  rw [profile, profile, hf, hp]

@[simp] theorem Task.profile_run (t : Task Fn) : t.run.profile = t.profile :=
  profile_of_signature t.run_signature

@[simp] theorem Task.profile_relinquish (t : Task Fn) : t.relinquish.profile = t.profile :=
  profile_of_signature t.relinquish_signature

namespace Scheduler

variable {s s' : Scheduler Fn} {id : TaskId} {t : Task Fn}

section

variable (s)

@[simp] theorem roster_running : s.roster.running = s.running := rfl
@[simp] theorem roster_tickCount : s.roster.tickCount = s.tickCount := rfl
@[simp] theorem roster_currentTaskId : s.roster.currentTaskId = s.currentTaskId := rfl
@[simp] theorem roster_nextTaskId : s.roster.nextTaskId = s.nextTaskId := rfl
@[simp] theorem roster_line : s.roster.line = s.readyIds := rfl
@[simp] theorem roster_profile : s.roster.profile id = (s.task? id).bind Task.profile := rfl

end

/-! ### The line -/

theorem rank_roster (ht : s.task? id = some t) (hf : t.function ≠ none) :
    s.roster.rank id = t.priority := by
  obtain ⟨f, hf⟩ := Option.ne_none_iff_exists'.1 hf
  simp [Roster.rank, roster, ht, Task.profile, hf]

theorem QueuesCoherent.rank_roster (h : s.QueuesCoherent) (ht : s.task? id = some t) :
    s.roster.rank id = t.priority :=
  Scheduler.rank_roster ht (h.task_ok id t ht).2.1

/-- The vector of a priority holds tasks of that rank. -/
def Ranked (s : Scheduler Fn) : Prop := ∀ p, ∀ i ∈ s.readyVec p, s.roster.rank i = p

theorem QueuesCoherent.ranked (h : s.QueuesCoherent) : s.Ranked := by
  intro p i hi
  obtain ⟨t, ht, hp, -⟩ := (h.mem_ready i p).1 hi
  rw [h.rank_roster ht, hp]

theorem readyVec_of_mem {e : UInt8 × List TaskId} (he : e ∈ s.readyQueue.entries) :
    s.readyVec e.1 = e.2 := by
  rw [readyVec, OrderedMap.mem_entries_iff.1 he]
  rfl

theorem Ranked.of_mem (h : s.Ranked) {e : UInt8 × List TaskId} (he : e ∈ s.readyQueue.entries)
    {i : TaskId} (hi : i ∈ e.2) : s.roster.rank i = e.1 :=
  h e.1 i (readyVec_of_mem he ▸ hi)

theorem Ranked.isLine (h : s.Ranked) : IsLine s.roster.rank s.readyIds :=
  IsLine.flatMap id (s.readyQueue.sorted.imp fun hlt => UInt8.le_of_lt hlt)
    fun _ he _ hi => h.of_mem he hi

/-- The line, seen at one priority, is the vector of that priority. -/
theorem Ranked.filter_readyIds (h : s.Ranked) (p : UInt8) :
    s.readyIds.filter (s.roster.rank · = p) = s.readyVec p := by
  have hgroup : ∀ e ∈ s.readyQueue.entries,
      e.2.filter (s.roster.rank · = p) = if e.1 = p then e.2 else [] := by
    intro e he
    split_ifs with hp
    · exact List.filter_eq_self.2 fun i hi => by simpa [hp] using h.of_mem he hi
    · refine List.filter_eq_nil_iff.2 fun i hi => ?_
      rw [h.of_mem he hi]
      simpa using hp
  have hkeys : s.readyQueue.entries.Pairwise fun e e' => e.1 ≠ e'.1 :=
    s.readyQueue.sorted.imp fun hlt => ne_of_gt hlt
  rw [readyIds, List.filter_flatMap, readyVec, OrderedMap.find?, ← flatMap_key hkeys]
  exact List.flatMap_congr hgroup

theorem readyIds_eq {l : List TaskId} (hl : IsLine s.roster.rank l)
    (hf : ∀ p, s.readyVec p = l.filter (s.roster.rank · = p)) : s.readyIds = l := by
  have hranked : s.Ranked := by
    intro p i hi
    rw [hf] at hi
    simpa using (List.mem_filter.1 hi).2
  exact hranked.isLine.ext hl fun p => (hranked.filter_readyIds p).trans (hf p)

theorem rank_roster_congr
    (h : ∀ i, (s'.task? i).bind Task.profile = (s.task? i).bind Task.profile) :
    s'.roster.rank = s.roster.rank := by
  funext i
  simp [Roster.rank, roster, h]

theorem Ranked.addToReadyQueue (h : s.Ranked) (ht : s.task? id = some t) (hf : t.function ≠ none)
    (hn : id ∉ s.readyVec t.priority) :
    (s.addToReadyQueue id).readyIds = joinLine s.roster.rank id s.readyIds := by
  have hrank : (s.addToReadyQueue id).roster.rank = s.roster.rank :=
    rank_roster_congr fun i => by rw [addToReadyQueue_task?]
  refine readyIds_eq (by rw [hrank]; exact h.isLine.joinLine id) ?_
  intro p
  rw [readyVec_addToReadyQueue ht, hrank, h.isLine.filter_joinLine, h.filter_readyIds,
    Scheduler.rank_roster ht hf]
  by_cases hp : p = t.priority
  · rw [if_pos ⟨hp, hp ▸ hn⟩, if_pos hp]
  · rw [if_neg fun hc => hp hc.1, if_neg hp]

theorem Ranked.removeFromReadyQueue (h : s.Ranked) (ht : s.task? id = some t)
    (hf : t.function ≠ none) : (s.removeFromReadyQueue id).readyIds = s.readyIds.erase id := by
  have hrank : (s.removeFromReadyQueue id).roster.rank = s.roster.rank :=
    rank_roster_congr fun i => by rw [removeFromReadyQueue_task?]
  refine readyIds_eq (by rw [hrank]; exact h.isLine.erase id) ?_
  intro p
  rw [readyVec_removeFromReadyQueue ht, hrank, ← List.erase_filter, h.filter_readyIds]
  split_ifs with hp
  · rfl
  · -- the task is in no vector but its own
    refine (List.erase_of_not_mem fun hm => hp ?_).symm
    rw [← h p id hm, Scheduler.rank_roster ht hf]

/-- The first one in the line is picked, and joins the line again. -/
theorem Ranked.pickNextTask (h : s.Ranked) :
    (s.readyIds = [] ∧ s.pickNextTask = (s, idleTaskId)) ∨
      ∃ i rest rq, s.readyIds = i :: rest ∧ s.pickNextTask = ({ s with readyQueue := rq }, i) ∧
        readyIds { s with readyQueue := rq } = joinLine s.roster.rank i rest := by
  by_cases hv : ∀ p, s.readyVec p = []
  · refine .inl ⟨?_, pickNextTask_idle hv⟩
    refine readyIds_eq List.Pairwise.nil fun p => ?_
    rw [hv p]
    rfl
  · obtain ⟨q, hq⟩ := not_forall.1 hv
    obtain ⟨p, i, rest, rq, hp, htop, hpick, hfind⟩ := pickNextTask_spec hq
    have hrank : s.roster.rank i = p := h p i (by rw [hp]; exact List.mem_cons_self)
    -- the first one of the highest vector that is not empty is the front of the line
    obtain ⟨tl, htl⟩ : ∃ tl, s.readyIds = i :: tl := by
      refine h.isLine.eq_cons_of_filter ?_ ((h.filter_readyIds p).trans hp)
      intro j hj
      refine htop _ fun hnil => ?_
      have hm : j ∈ s.readyIds.filter (s.roster.rank · = s.roster.rank j) :=
        List.mem_filter.2 ⟨hj, by simp⟩
      rw [h.filter_readyIds, hnil] at hm
      cases hm
    refine .inr ⟨i, tl, rq, htl, hpick, ?_⟩
    have hline : IsLine s.roster.rank (i :: tl) := htl ▸ h.isLine
    refine readyIds_eq (hline.tail.joinLine i) ?_
    intro p'
    change (rq.find? p').getD [] = (joinLine s.roster.rank i tl).filter (s.roster.rank · = p')
    have hvec := h.filter_readyIds p'
    rw [htl, List.filter_cons] at hvec
    rw [hfind, hline.tail.filter_joinLine, hrank]
    by_cases hp' : p' = p
    · subst hp'
      rw [if_pos (by simpa using hrank), hp] at hvec
      rw [if_pos rfl, if_pos rfl, Option.getD_some, (List.cons.inj hvec).2]
    · rw [if_neg (by simpa [hrank] using Ne.symm hp')] at hvec
      rw [if_neg hp', if_neg hp', hvec]
      rfl

/-! ### Waking -/

/-- The loop of `processDelayQueue`: those whose deadline has come join the line one by one. -/
theorem QueuesCoherent.wake_line {ids p : List TaskId} {s : Scheduler Fn}
    (h : QueuesCoherent { s with delayQueue := p ++ ids }) :
    (s.wake ids).1.readyIds = (ids.filter fun i => s.deadline i ≤ s.tickCount).foldl
        (fun l i => joinLine s.roster.rank i l) s.readyIds ∧
      (s.wake ids).2 = ids.filter fun i => ¬ s.deadline i ≤ s.tickCount := by
  -- `p` are the delays that the loop has kept so far
  induction ids generalizing s p with
  | nil => exact ⟨rfl, rfl⟩
  | cons id rest ih =>
    obtain ⟨t, ht, hb⟩ := (h.mem_delay id).1 (by simp)
    have ht : s.task? id = some t := ht
    have hdl : s.deadline id = t.delayUntilTick := by simp [deadline, ht]
    by_cases hle : t.delayUntilTick ≤ s.tickCount
    · have hnot : id ∉ s.readyVec t.priority :=
        h.not_mem_ready (fun u hu => by
          obtain rfl : t = u := Option.some.inj (ht.symm.trans hu)
          simp [Task.Runnable, hb]) t.priority
      set u := (s.setTask id (t.setState .ready)).addToReadyQueue id with hu
      have htask : ∀ i, u.task? i = if i = id then some (t.setState .ready) else s.task? i := by
        simp [hu]
      have hprofile : ∀ i, (u.task? i).bind Task.profile = (s.task? i).bind Task.profile := by
        intro i
        rw [htask]
        split_ifs with hi
        · simp [hi, ht]
        · rfl
      have hdeadline : u.deadline = s.deadline := by
        funext i
        rw [deadline, deadline, htask]
        split_ifs with hi
        · simp [hi, ht]
        · rfl
      have hranked : (s.setTask id (t.setState .ready)).Ranked := by
        intro p i hi
        rw [rank_roster_congr (s := s)]
        · exact h.ranked p i hi
        · intro j
          rw [← hprofile j, hu, addToReadyQueue_task?]
      have hline : u.readyIds = joinLine s.roster.rank id s.readyIds := by
        rw [hu, hranked.addToReadyQueue (t := t.setState .ready) (by simp)
          (h.task_ok id t ht).2.1 hnot, rank_roster_congr (s := s)]
        · rfl
        · intro j
          rw [← hprofile j, hu, addToReadyQueue_task?]
      have htick : u.tickCount = s.tickCount := by simp [hu]
      obtain ⟨hl, hd⟩ := ih (h.wakeOne ht)
      rw [wake_cons_of_expired ht hle, ← hu, hl, hd, hdeadline, rank_roster_congr hprofile, hline,
        htick, List.filter_cons, List.filter_cons]
      simp [hdl, hle]
    · have he : ¬ s.Expired id := by
        rintro ⟨u, hu, hu'⟩
        rw [← Option.some.inj (ht.symm.trans hu)] at hu'
        exact hle hu'
      obtain ⟨hl, hd⟩ := ih (s := s) (p := p ++ [id]) (by simpa using h)
      rw [wake_cons_of_not_expired he, hl, hd, List.filter_cons, List.filter_cons]
      simp [hdl, hle]

theorem processDelayQueue_profile (i : TaskId) :
    (s.processDelayQueue.task? i).bind Task.profile = (s.task? i).bind Task.profile := by
  by_cases he : i ∈ s.delayQueue ∧ s.Expired i
  · obtain ⟨hm, t, ht, hle⟩ := he
    rw [processDelayQueue_task?_of_expired s hm ht hle, ht]
    rfl
  · rw [processDelayQueue_task?_of_not s he]

theorem processDelayQueue_deadline : s.processDelayQueue.deadline = s.deadline := by
  funext i
  by_cases he : i ∈ s.delayQueue ∧ s.Expired i
  · obtain ⟨hm, t, ht, hle⟩ := he
    simp [deadline, processDelayQueue_task?_of_expired s hm ht hle, ht]
  · rw [deadline, deadline, processDelayQueue_task?_of_not s he]

theorem QueuesCoherent.processDelayQueue_executing (h : s.QueuesCoherent) (i : TaskId) :
    ((s.processDelayQueue.task? i).any fun t => t.state = .running) =
      (s.task? i).any fun t => t.state = .running := by
  by_cases he : i ∈ s.delayQueue ∧ s.Expired i
  · obtain ⟨hm, t, ht, hle⟩ := he
    obtain ⟨u, hu, hb⟩ := (h.mem_delay i).1 hm
    obtain rfl : t = u := Option.some.inj (ht.symm.trans hu)
    simp [processDelayQueue_task?_of_expired s hm ht hle, ht, hb]
  · rw [processDelayQueue_task?_of_not s he]

/-- **Waking.** -/
theorem QueuesCoherent.roster_processDelayQueue (h : s.QueuesCoherent) :
    s.processDelayQueue.roster = s.roster.wake := by
  obtain ⟨hline, hdelay⟩ : (s.wake s.delayQueue).1.readyIds = _ ∧ (s.wake s.delayQueue).2 = _ :=
    QueuesCoherent.wake_line (p := []) h
  have hcnt := s.processDelayQueue_counters
  have hcur := processDelayQueue_currentTaskId s
  ext1
  · exact hcnt.running
  · exact hcnt.tickCount
  · exact hcnt.nextTaskId
  · exact hcur
  · change ((s.processDelayQueue.task? _).any _) = _
    rw [hcur]
    exact h.processDelayQueue_executing _
  · funext i
    exact processDelayQueue_profile i
  · change (s.wake s.delayQueue).1.readyIds = _
    rw [hline, Roster.wake]
    simp only [roster, List.filter_map, List.map_map]
    congr 1
    exact (List.map_id' _).symm
  · change (s.wake s.delayQueue).2.map _ = _
    rw [hdelay, processDelayQueue_deadline, Roster.wake]
    simp only [roster, List.filter_map]
    rfl

/-! ### Scheduling -/

theorem Decision.profile (h : s.Decision id t) (i : TaskId) :
    (s.schedule.state.task? i).bind Task.profile = (s.task? i).bind Task.profile := by
  rw [← processDelayQueue_profile (s := s), h.tasks]
  split_ifs with hi hr
  · simp [hi, h.picked]
  · simp [hi, h.picked]
  · cases s.processDelayQueue.task? i <;> simp

theorem Decision.deadline (h : s.Decision id t) : s.schedule.state.deadline = s.deadline := by
  rw [← processDelayQueue_deadline (s := s)]
  funext i
  rw [Scheduler.deadline, Scheduler.deadline, h.tasks]
  split_ifs with hi hr
  · simp [hi, h.picked]
  · simp [hi, h.picked]
  · cases s.processDelayQueue.task? i <;> simp

/-- The roster after a scheduling decision, but for the line. -/
theorem Decision.roster (h : s.Decision id t) (hs : s.QueuesCoherent) :
    s.schedule.state.roster = { s.roster.wake with
      line := s.schedule.state.readyIds, currentTaskId := id, executing := t.Runnable } := by
  have hwake := hs.roster_processDelayQueue
  ext1
  · exact h.counters.running
  · exact h.counters.tickCount
  · exact h.counters.nextTaskId
  · exact h.currentTaskId
  · change ((s.schedule.state.task? _).any _) = _
    rw [h.currentTaskId, h.tasks, if_pos rfl]
    by_cases hr : t.Runnable
    · simp [hr]
    · have hne : t.state ≠ .running := fun hrun => hr (.inr hrun)
      simp [hr, hne]
  · funext i
    exact h.profile i
  · rfl
  · rw [← hwake]
    simp only [Scheduler.roster, h.delayQueue, h.deadline, processDelayQueue_deadline]

/-- **Scheduling.** -/
theorem Coherent.roster_schedule (h : s.Coherent) :
    s.schedule.map roster = s.roster.schedule := by
  by_cases hs : s.running = true
  swap
  · simp [Scheduler.schedule, Roster.schedule, hs, Outcome.map]
  have hp : s.processDelayQueue.QueuesCoherent := h.processDelayQueue
  have hwake : s.processDelayQueue.roster = s.roster.wake := h.roster_processDelayQueue
  -- the decision of the scheduler, which both sides turn into a state
  obtain ⟨id, t, hd⟩ := h.decision hs
  have hroster := hd.roster h.toQueuesCoherent
  have hline : s.roster.wake.line = s.processDelayQueue.readyIds := by rw [← hwake]; rfl
  have hmem : id ∈ s.processDelayQueue.readyIds ↔ t.Runnable := by
    rw [hp.mem_readyIds, hd.picked]
    simp
  have hready : s.schedule.state.readyIds = s.processDelayQueue.pickNextTask.1.readyIds := by
    rw [readyIds, hd.readyQueue, readyIds]
  rw [Roster.schedule, if_pos (show s.roster.running = true from hs), hline]
  rcases hp.ranked.pickNextTask with ⟨hnil, hpick⟩ | ⟨i, rest, rq, hcons, hpick, hjoin⟩
  · -- the line is empty, and the idle task is not executed
    rw [hnil] at hmem ⊢
    have hr : ¬ t.Runnable := fun hr => List.not_mem_nil (hmem.2 hr)
    obtain rfl : id = idleTaskId := by rw [hd.id_eq, hpick]
    rw [hd.returned hr, Outcome.map, hroster, hready, hpick, hnil]
    congr 1
    ext1 <;> simp [hr, hline, hnil]
  · obtain rfl : id = i := by rw [hd.id_eq, hpick]
    have hr : t.Runnable := hmem.1 (by rw [hcons]; exact List.mem_cons_self)
    obtain ⟨f, hf, hentered⟩ := hd.entered hr
    have hprofile : s.roster.profile id = some ⟨f, t.priority⟩ := by
      change (s.task? id).bind Task.profile = _
      rw [← processDelayQueue_profile, hd.picked]
      simp [Task.profile, hf]
    have hrank : s.processDelayQueue.roster.rank = s.roster.rank :=
      rank_roster_congr processDelayQueue_profile
    rw [hentered, Outcome.map, hroster, hready, hpick, hcons]
    simp only [hprofile, hjoin, hrank, hr, decide_true]

/-! ### Where a task stands -/

theorem QueuesCoherent.profile_isNone (h : s.QueuesCoherent) :
    (s.roster.profile id).isNone ↔ s.task? id = none := by
  cases ht : s.task? id with
  | none => simp [ht]
  | some t =>
    obtain ⟨f, hf⟩ := Option.ne_none_iff_exists'.1 (h.task_ok id t ht).2.1
    simp [ht, Task.profile, hf]

theorem mem_sleepers : id ∈ s.roster.sleepers.map Prod.fst ↔ id ∈ s.delayQueue := by
  simp [roster]

/-- **The state of a task is where it stands.** -/
theorem Coherent.state?_roster (h : s.Coherent) :
    s.roster.state? id = (s.getTask id).map Task.state := by
  have hline : id ∈ s.roster.line ↔ _ := h.mem_readyIds
  have hsleep : id ∈ s.roster.sleepers.map Prod.fst ↔ _ := mem_sleepers.trans (h.mem_delay id)
  cases ht : s.task? id with
  | none => simp [Roster.state?, getTask, ht]
  | some t =>
    obtain ⟨-, hf, hterm⟩ := h.task_ok id t ht
    obtain ⟨f, hf⟩ := Option.ne_none_iff_exists'.1 hf
    have hexec : (s.roster.executing = true ∧ id = s.currentTaskId) ↔ t.state = .running := by
      constructor
      · rintro ⟨he, rfl⟩
        simpa [roster, ht] using he
      · intro hr
        have hcur := h.running_current id t ht hr
        subst hcur
        simp [roster, ht, hr]
    rw [ht] at hline hsleep
    simp only [Roster.state?, getTask, ht, roster_profile, Option.bind_some, Task.profile, hf,
      Option.map_some, hline, hsleep, roster_currentTaskId, hexec, Option.some.injEq,
      exists_eq_left']
    cases hst : t.state <;> simp_all [Task.Runnable]

/-! ### Operations on one task -/

/-- A task with the same profile leaves the line. -/
theorem QueuesCoherent.readyIds_remove (h : s.QueuesCoherent) (ht : s.task? id = some t)
    {t' : Task Fn} (hsig : t'.signature = t.signature) :
    ((s.setTask id t').removeFromReadyQueue id).readyIds = s.readyIds.erase id := by
  have hprofile : ∀ i, ((s.setTask id t').task? i).bind Task.profile =
      (s.task? i).bind Task.profile := by
    intro i
    rw [task?_setTask]
    split_ifs with hi
    · simp [hi, ht, Task.profile_of_signature hsig]
    · rfl
  have hranked : (s.setTask id t').Ranked := by
    intro p i hi
    rw [rank_roster_congr hprofile]
    exact h.ranked p i hi
  have hf : t'.function ≠ none := by
    rw [show t'.function = t.function from congrArg Prod.fst hsig]
    exact (h.task_ok id t ht).2.1
  exact hranked.removeFromReadyQueue (t := t') (by simp) hf

theorem QueuesCoherent.sleepers_dismiss (h : s.QueuesCoherent) (id : TaskId) :
    (s.roster.dismiss id).sleepers = (s.delayQueue.erase id).map fun i => (i, s.deadline i) := by
  rw [h.delay_nodup.erase_eq_filter]
  simp only [Roster.dismiss, roster, List.filter_map]
  congr 2
  funext i
  by_cases hi : i = id <;> simp [hi]

theorem sleepers_congr {ids : List TaskId} (h : ∀ i ∈ ids, s'.task? i = s.task? i) :
    ids.map (fun i => (i, s'.deadline i)) = ids.map fun i => (i, s.deadline i) :=
  List.map_congr_left fun i hi => by rw [deadline, deadline, h i hi]

/-- `yield` moves the task that has the processor behind its equals. -/
theorem Coherent.roster_requeueCurrent (h : s.Coherent) :
    s.requeueCurrent.roster = s.roster.stepBack := by
  obtain ⟨t, ht⟩ := h.current
  have hexec : s.roster.executing = true ↔ t.state = .running := by simp [roster, ht]
  -- only a running task that is not the idle task is put back into the queue
  by_cases hc : t.state = .running ∧ s.currentTaskId ≠ idleTaskId
  swap
  · have hstay : s.requeueCurrent = s := by
      rw [Scheduler.requeueCurrent, ht]
      simp only [ite_eq_right_iff, and_imp]
      intro hidle _ hr
      exact absurd ⟨hr, hidle⟩ hc
    rw [hstay, Roster.stepBack, if_neg]
    rwa [hexec, roster_currentTaskId]
  · obtain ⟨hr, hidle⟩ := hc
    -- `u` has the task ready, and `v` has it out of its vector as well, from where it joins again
    set u := s.setTask s.currentTaskId (t.setState .ready) with hu
    set v := u.removeFromReadyQueue s.currentTaskId with hv
    have hrequeue : s.requeueCurrent = v.addToReadyQueue s.currentTaskId := by
      rw [Scheduler.requeueCurrent, if_pos ⟨hidle, s.mem_tasks_of_task? ht⟩, ht]
      simp [hr, hu, hv]
    have hvt : v.task? s.currentTaskId = some (t.setState .ready) := by simp [hv, hu]
    have htask : ∀ i, v.task? i =
        if i = s.currentTaskId then some (t.setState .ready) else s.task? i := fun i => by
      rw [hv, removeFromReadyQueue_task?, hu, task?_setTask]
    have hprofile : ∀ i, (v.task? i).bind Task.profile = (s.task? i).bind Task.profile := by
      intro i
      rw [htask]
      split_ifs with hi
      · simp [hi, ht]
      · rfl
    have hcoh : u.QueuesCoherent := h.setRunnable ht (.inr hr) rfl rfl rfl (.inl rfl)
    have hvec : ∀ p, v.readyVec p =
        if p = t.priority then (u.readyVec p).erase s.currentTaskId else u.readyVec p :=
      readyVec_removeFromReadyQueue (t := t.setState .ready) (by simp [hu])
    have hranked : v.Ranked := by
      intro p i hi
      rw [rank_roster_congr hprofile]
      refine h.ranked p i ?_
      rw [hvec] at hi
      split_ifs at hi
      · exact List.mem_of_mem_erase hi
      · exact hi
    have hline : v.readyIds = s.readyIds.erase s.currentTaskId :=
      h.readyIds_remove ht (t.setState_signature .ready)
    have hnot : s.currentTaskId ∉ v.readyVec t.priority := by
      rw [hvec, if_pos rfl]
      exact (hcoh.ready_nodup _).not_mem_erase
    rw [hrequeue, Roster.stepBack, if_pos ⟨hexec.2 hr, hidle⟩]
    ext1
    · simp [hv, hu]
    · simp [hv, hu]
    · simp [hv, hu]
    · simp [hv, hu]
    · simp [roster, hv, hu]
    · funext i
      change ((v.addToReadyQueue _).task? i).bind _ = _
      rw [addToReadyQueue_task?, hprofile]
      rfl
    · change (v.addToReadyQueue _).readyIds = _
      rw [hranked.addToReadyQueue hvt (h.task_ok _ t ht).2.1 hnot, hline,
        rank_roster_congr hprofile]
      rfl
    · have hd : (v.addToReadyQueue s.currentTaskId).delayQueue = s.delayQueue := by simp [hv, hu]
      change (v.addToReadyQueue _).delayQueue.map _ = s.delayQueue.map _
      rw [hd]
      -- the current task runs, so it is not among the sleepers
      refine sleepers_congr fun i hi => ?_
      have hne : i ≠ s.currentTaskId := by
        rintro rfl
        obtain ⟨w, hw, hb⟩ := (h.mem_delay _).1 hi
        rw [← Option.some.inj (ht.symm.trans hw), hr] at hb
        cases hb
      rw [addToReadyQueue_task?, htask, if_neg hne]

/-- `delay` puts the current task to sleep. -/
theorem Coherent.roster_blockCurrent (h : s.Coherent) (hb : ∀ t, s.task? s.currentTaskId = some t →
    t.state ≠ .blocked) (hidle : s.currentTaskId ≠ idleTaskId) (n : UInt64) :
    (s.blockCurrent n).roster = s.roster.sleep n := by
  obtain ⟨t, hblock⟩ := h.blockCurrent hb hidle n
  have ht := hblock.current
  have hnd : s.currentTaskId ∉ s.delayQueue := h.not_mem_delay hb
  have hself := hblock.tasks s.currentTaskId
  rw [if_pos rfl] at hself
  ext1
  · exact hblock.counters.running
  · exact hblock.counters.tickCount
  · exact hblock.counters.nextTaskId
  · exact hblock.currentTaskId
  · simp [roster, hblock.currentTaskId, hself, Roster.sleep]
  · funext i
    change ((s.blockCurrent n).task? i).bind _ = (s.task? i).bind _
    rw [hblock.tasks]
    split_ifs with hi
    · rw [hi, ht]
      rfl
    · rfl
  · change (s.blockCurrent n).readyIds = s.readyIds.erase s.currentTaskId
    rw [blockCurrent_eq ht]
    exact h.readyIds_remove ht rfl
  · have hcur : (s.blockCurrent n).deadline s.currentTaskId = s.tickCount + n := by
      simp [deadline, hself]
    change (s.blockCurrent n).delayQueue.map _ = (s.roster.dismiss s.currentTaskId).sleepers ++ _
    rw [h.sleepers_dismiss, hblock.delayQueue, List.map_append, List.map_singleton, hcur,
      List.erase_of_not_mem hnd]
    congr 1
    refine sleepers_congr fun i hi => ?_
    rw [hblock.tasks, if_neg (ne_of_mem_of_not_mem hi hnd)]

/-- `suspendTask` takes the task out of the line and wakes nobody. -/
theorem Coherent.roster_parkTask (h : s.Coherent) (ht : s.task? id = some t) :
    (s.parkTask id t).roster = { s.roster.dismiss id with
      executing := s.roster.executing && id != s.currentTaskId } := by
  have hpark := h.parkTask ht
  ext1
  · exact hpark.counters.running
  · exact hpark.counters.tickCount
  · exact hpark.counters.nextTaskId
  · exact hpark.currentTaskId
  · change ((s.parkTask id t).task? _).any _ = _
    rw [hpark.currentTaskId, hpark.tasks]
    split_ifs with hc
    · simp [hc]
    · simp [roster, Ne.symm hc]
  · funext i
    change ((s.parkTask id t).task? i).bind _ = (s.task? i).bind _
    rw [hpark.tasks]
    split_ifs with hi
    · rw [hi, ht]
      rfl
    · rfl
  · exact h.readyIds_remove ht rfl
  · change (s.parkTask id t).delayQueue.map _ = (s.roster.dismiss id).sleepers
    rw [h.sleepers_dismiss, hpark.delayQueue]
    refine sleepers_congr fun i hi => ?_
    rw [hpark.tasks, if_neg (ne_of_mem_of_not_mem hi h.delay_nodup.not_mem_erase)]

/-- `deleteTask` takes the task out of everything. -/
theorem Coherent.roster_removeTask (h : s.Coherent) (ht : s.task? id = some t) (cur : TaskId) :
    roster { s.removeTask id with currentTaskId := cur } = { s.roster.dismiss id with
      currentTaskId := cur
      executing := if cur = id then false else (s.task? cur).any fun t => t.state = .running
      profile := Function.update s.roster.profile id none } := by
  ext1
  · simp [roster, removeTask, Roster.dismiss]
  · simp [roster, removeTask, Roster.dismiss]
  · simp [roster, removeTask, Roster.dismiss]
  · rfl
  · change ((s.removeTask id).task? cur).any _ = _
    rw [removeTask_task?]
    split_ifs <;> rfl
  · funext i
    change ((s.removeTask id).task? i).bind _ = _
    rw [removeTask_task?]
    by_cases hi : i = id
    · simp [hi]
    · simp [hi]
  · exact h.ranked.removeFromReadyQueue ht (h.task_ok id t ht).2.1
  · change (s.removeTask id).delayQueue.map _ = (s.roster.dismiss id).sleepers
    rw [h.sleepers_dismiss, removeTask_delayQueue]
    refine sleepers_congr fun i hi => ?_
    change (s.removeTask id).task? i = _
    rw [removeTask_task?, if_neg (ne_of_mem_of_not_mem hi h.delay_nodup.not_mem_erase)]

/-- A task that is in no queue becomes ready. -/
theorem Coherent.roster_makeReady (h : s.Coherent) {u : Scheduler Fn} (hready : t.state = .ready)
    (hT : ∀ v, s.task? id = some v → ¬ v.Runnable ∧ v.state ≠ .blocked) (hf : t.function ≠ none)
    (hu : u.tasks = s.tasks) (hq : u.readyQueue = s.readyQueue)
    (hd : u.delayQueue = s.delayQueue) :
    ((u.setTask id t).addToReadyQueue id).roster = Roster.enqueue
      { u.roster with profile := Function.update s.roster.profile id t.profile } id := by
  have htask : ∀ i, (u.setTask id t).task? i = if i = id then some t else s.task? i := fun i => by
    rw [task?_setTask, task?, task?, hu]
  have hrank : (u.setTask id t).roster.rank =
      Roster.rank { u.roster with profile := Function.update s.roster.profile id t.profile } := by
    funext i
    by_cases hi : i = id <;> simp [Roster.rank, htask, hi]
  -- a task that was not runnable is in no vector, so it joins the line as a new one
  have hnot : ∀ p, id ∉ s.readyVec p := h.not_mem_ready fun v hv => (hT v hv).1
  have hranked : (u.setTask id t).Ranked := by
    intro p i hi
    rw [setTask_readyVec, readyVec, hq] at hi
    have hne : i ≠ id := ne_of_mem_of_not_mem hi (hnot p)
    have hrank := h.ranked p i hi
    simpa [Roster.rank, htask, hne] using hrank
  have hnd : id ∉ s.delayQueue := h.not_mem_delay fun v hv => (hT v hv).2
  ext1
  · simp [Roster.enqueue]
  · simp [Roster.enqueue]
  · simp [Roster.enqueue]
  · simp [Roster.enqueue]
  · -- the task did not have the processor before, and does not get it
    have hstate : ∀ i, ((u.setTask id t).task? i).any (fun t => t.state = .running) =
        (s.task? i).any fun t => t.state = .running := by
      intro i
      rw [htask]
      split_ifs with hi
      · subst hi
        cases hv : s.task? i with
        | none => simp [hready]
        | some v =>
          have hrun : v.state ≠ .running := fun hr => (hT v hv).1 (.inr hr)
          simp [hready, hrun]
      · rfl
    change ((addToReadyQueue _ id).task? _).any _ = (u.task? u.currentTaskId).any _
    rw [addToReadyQueue_task?, addToReadyQueue_currentTaskId, setTask_currentTaskId, hstate,
      task?, task?, hu]
  · funext i
    change ((addToReadyQueue _ id).task? i).bind _ = _
    rw [addToReadyQueue_task?, htask]
    by_cases hi : i = id <;> simp [Roster.enqueue, hi]
  · have hline : (u.setTask id t).readyIds = s.readyIds := by
      rw [readyIds, setTask_readyQueue, hq, readyIds]
    change (addToReadyQueue _ id).readyIds = joinLine _ id u.readyIds
    rw [hranked.addToReadyQueue (t := t) (by simp) hf (by simpa [readyVec, hq] using hnot _), hrank,
      hline, readyIds, readyIds, hq]
  · change (addToReadyQueue _ id).delayQueue.map _ = u.delayQueue.map _
    rw [addToReadyQueue_delayQueue, setTask_delayQueue, hd]
    refine sleepers_congr fun i hi => ?_
    rw [addToReadyQueue_task?, htask, if_neg (ne_of_mem_of_not_mem hi hnd), task?, task?, hu]

/-! ### All operations -/

theorem roster_init : (init : Scheduler Fn).roster = .init := by
  ext1
  · rfl
  · rfl
  · rfl
  · rfl
  · rfl
  · funext i
    change ((init : Scheduler Fn).task? i).bind _ = _
    rw [task?_init]
    by_cases hi : i = idleTaskId <;> simp [hi, Roster.init, Task.profile, Task.new]
  · rfl
  · rfl

theorem Settled.roster_createTask (h : s.Settled) {name : String} {f : Fn} {p : UInt8} {n : UInt64}
    (hfresh : s.task? s.nextTaskId = none) :
    (s.perform (.createTask name (some f) p n)).map roster =
      .returned (s.roster.create f p) := by
  have hT : ∀ v, s.task? s.nextTaskId = some v → ¬ v.Runnable ∧ v.state ≠ .blocked := by
    intro v hv
    rw [hfresh] at hv
    cases hv
  exact congrArg Outcome.returned (h.roster_makeReady
    (t := .new s.nextTaskId name (some (.user f)) p n)
    (u := { s with nextTaskId := s.nextTaskId + 1 }) rfl hT (by simp [Task.new]) rfl rfl rfl)

theorem Settled.roster_deleteTask (h : s.Settled) (id : TaskId) :
    (s.deleteTask id).2.map roster = s.roster.delete id := by
  have hprofile : (s.roster.profile id).isNone ↔ s.task? id = none := h.profile_isNone
  unfold Scheduler.deleteTask Roster.delete
  by_cases hi : id = idleTaskId
  · simp [hi, Outcome.map]
  by_cases hn : s.task? id = none
  · rw [if_neg hi, if_pos hn, if_pos (.inr (hprofile.2 hn))]
    rfl
  rw [if_neg hi, if_neg hn, if_neg (not_or.2 ⟨hi, fun hc => hn (hprofile.1 hc)⟩)]
  obtain ⟨t, ht⟩ := Option.ne_none_iff_exists'.1 hn
  by_cases hc : s.currentTaskId = id
  · have hcoh := (h.removeTask ht hi idleTaskId (by rw [if_pos hc])).toCoherent
    -- the idle task was not current, and was therefore not running
    have hidle : (s.task? idleTaskId).any (fun t => t.state = .running) = false := by
      obtain ⟨v, hv, -⟩ := h.idle
      have hrun : v.state ≠ .running := fun hr =>
        hi ((h.running_current _ v hv hr).trans hc).symm
      simp [hv, hrun]
    rw [if_pos hc, if_pos (show s.roster.currentTaskId = id from hc)]
    simp only [hcoh.roster_schedule, h.roster_removeTask ht, hidle, ite_self]
  · have hremove := h.roster_removeTask ht s.currentTaskId
    rw [if_neg hc] at hremove
    rw [if_neg hc, if_neg (show ¬ s.roster.currentTaskId = id from hc)]
    have hcur : { s.removeTask id with currentTaskId := s.currentTaskId } = s.removeTask id := by
      simp [Scheduler.removeTask]
    rw [hcur] at hremove
    exact congrArg Outcome.returned hremove

theorem Settled.roster_suspendTask (h : s.Settled) (id : TaskId) :
    (s.suspendTask id).2.map roster = s.roster.suspend id := by
  have hprofile : (s.roster.profile id).isNone ↔ s.task? id = none := h.profile_isNone
  unfold Scheduler.suspendTask Roster.suspend
  cases ht : s.task? id with
  | none =>
    rw [if_pos (hprofile.2 ht)]
    rfl
  | some t =>
    have hpark := h.parkTask ht
    have hroster := h.roster_parkTask ht
    rw [if_neg fun hc => by rw [hprofile.1 hc] at ht; cases ht]
    simp only [roster_currentTaskId, roster_running, ← hroster]
    have hcond : (id = (s.parkTask id t).currentTaskId ∧ (s.parkTask id t).running = true) ↔
        id = s.currentTaskId ∧ s.running = true := by
      rw [(h.toCoherent.parkTask ht).currentTaskId, (h.toCoherent.parkTask ht).counters.running]
    simp only [hcond]
    split_ifs
    · exact hpark.roster_schedule
    · rfl

theorem Settled.roster_resumeTask (h : s.Settled) (id : TaskId) :
    (s.resumeTask id).2.roster =
      if s.roster.state? id = some .suspended then s.roster.enqueue id else s.roster := by
  have hstate : s.roster.state? id = (s.getTask id).map Task.state := h.state?_roster
  unfold Scheduler.resumeTask
  cases ht : s.task? id with
  | none => simp [hstate, getTask, ht]
  | some t =>
    by_cases hsus : t.state = .suspended
    · have hT : ∀ v, s.task? id = some v → ¬ v.Runnable ∧ v.state ≠ .blocked := by
        intro v hv
        rw [← Option.some.inj (ht.symm.trans hv)]
        simp [Task.Runnable, hsus]
      have hready := h.roster_makeReady (t := t.setState .ready) (u := s) rfl hT
        (h.task_ok id t ht).2.1 rfl rfl rfl
      have hprofile : Function.update s.roster.profile id (t.setState .ready).profile =
          s.roster.profile := by
        refine Function.update_eq_self_iff.2 ?_
        simp [ht]
      rw [hprofile] at hready
      rw [hstate, getTask, ht, if_pos (by simp [hsus])]
      simp only [hsus, ↓reduceIte]
      exact hready
    · simp [hstate, getTask, ht, hsus]

/-- **Refinement.**  An operation of a settled scheduler is that operation of its roster, and
executes the same function. -/
theorem Settled.roster_perform (h : s.Settled) (o : Call Fn) (hfresh : s.FreshId o) :
    (s.perform o).map roster = s.roster.perform o := by
  cases o with
  | createTask name function p n =>
    cases function with
    | none => rfl
    | some f => exact h.roster_createTask hfresh
  | deleteTask id => exact h.roster_deleteTask id
  | start =>
    change Outcome.returned s.start.roster = _
    rw [Scheduler.start, h.ensureIdleTask]
    rfl
  | stop => rfl
  | schedule => exact h.roster_schedule
  | yield =>
    change s.yield.map roster = _
    by_cases hs : s.running = true
    · simp only [Scheduler.yield, hs, ↓reduceIte, Roster.perform, roster_running,
        h.coherent_requeueCurrent.roster_schedule, h.roster_requeueCurrent]
    · simp [Scheduler.yield, hs, Roster.perform, Outcome.map]
  | delay n =>
    change (s.delay n).map roster = _
    by_cases hs : s.running = true ∧ s.currentTaskId ≠ idleTaskId
    · obtain ⟨t, hblock⟩ := h.blockCurrent h.current_not_blocked hs.2 n
      have hroster := h.roster_blockCurrent h.current_not_blocked hs.2 n
      have hd : s.delay n = (s.blockCurrent n).schedule := by simp [Scheduler.delay, hs]
      simp only [hd, Roster.perform, roster_running, roster_currentTaskId, hs, ne_eq,
        not_false_eq_true, and_self, ↓reduceIte, hblock.coherent.roster_schedule, hroster]
    · have hd : s.delay n = .returned s := by
        rw [Scheduler.delay, if_pos]
        rwa [not_and_or, not_not] at hs
      simp only [hd, Roster.perform, roster_running, roster_currentTaskId, hs, ↓reduceIte,
        Outcome.map]
  | tick =>
    have hcoh : QueuesCoherent { s with tickCount := s.tickCount + 1 } :=
      ⟨h.idle, h.nonnull, h.task_ok, h.noEmptyVec, h.ready_nodup, h.mem_ready, h.delay_nodup,
        h.mem_delay⟩
    exact congrArg Outcome.returned hcoh.roster_processDelayQueue
  | suspendTask id => exact h.roster_suspendTask id
  | resumeTask id => exact congrArg Outcome.returned (h.roster_resumeTask id)
  | reset => exact congrArg Outcome.returned roster_init

theorem Settled.freshId_roster (h : s.Settled) (o : Call Fn) :
    s.FreshId o ↔ s.roster.FreshId o := by
  cases o with
  | createTask name function p n =>
    cases function with
    | none => exact Iff.rfl
    | some f =>
      change s.task? s.nextTaskId = none ↔ s.roster.profile s.nextTaskId = none
      rw [← h.profile_isNone, Option.isNone_iff_eq_none]
  | _ => exact Iff.rfl

end Scheduler

/-! ### Runs -/

theorem component_refines : (component Fn).Refines (rosterComponent Fn) (fun c => c.sched.roster)
    (fun c => c.sched.Settled) (fun c o => c.sched.FreshId o) Roster.FreshId where
  guard c o h := h.freshId_roster o
  kept_call c o h hfresh := by
    rw [component, Outcome.state_map]
    exact h.perform o hfresh
  kept_resume _ _ h := h
  kept_unwind _ _ h := h
  call c o h hfresh := by
    change (((c.sched.perform o).map _).map _ : Outcome _ _) = c.sched.roster.perform o
    rw [← h.roster_perform o hfresh]
    cases c.sched.perform o <;> rfl
  resume _ _ _ := rfl
  unwind _ _ _ := rfl

/-- **Refinement of runs.**  The roster makes exactly the runs of the scheduler, with the same
functions executed at the same steps; the scheduler ends in a state whose containers stand for that
roster, and in which `getTask` shows every task in the state in which it is there. -/
theorem run_roster_iff {ls : List (Label Fn)} {b : Roster Fn × List (Execution Fn)} :
    (rosterMachine Fn).Run (.init, []) ls b ↔ ∃ c, (freshMachine Fn).Run start ls c ∧
      (c.1.sched.roster, c.2) = b ∧
      ∀ id, (c.1.sched.getTask id).map Task.state = b.1.state? id := by
  have hrun : (rosterMachine Fn).Run (Scheduler.init.roster, []) ls b ↔ ∃ c,
      (freshMachine Fn).Run start ls c ∧ (c.1.sched.roster, c.2) = b :=
    component_refines.funBisim.run_iff (s := start) Scheduler.settled_init
  rw [Scheduler.roster_init] at hrun
  rw [hrun]
  refine exists_congr fun c => and_congr_right fun hc => ?_
  refine ⟨fun hb => ⟨hb, fun id => ?_⟩, fun hb => hb.1⟩
  have hsettled : c.1.sched.Settled := settled_of_reachable (fun _ _ h => h) ⟨ls, hc⟩
  rw [← hb, hsettled.state?_roster]

end Rtos

end EFS
