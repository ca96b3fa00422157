import EFS.Rtos.Scheduler

/-!
# What the queue operations do

One lemma for each helper of the scheduler, in terms of three views of its state: the task
behind an id (`Scheduler.task?`), the ready vector of a priority (`Scheduler.readyVec`) and the
delay queue.  Later proofs use these and do not unfold the helpers.
-/

namespace EFS

namespace Rtos

namespace Scheduler

variable {Fn : Type} (s : Scheduler Fn)

/-! ### Writing a task -/

section

variable (id i : TaskId) (t : Task Fn)

@[simp] theorem setTask_running : (s.setTask id t).running = s.running := rfl
@[simp] theorem setTask_tickCount : (s.setTask id t).tickCount = s.tickCount := rfl
@[simp] theorem setTask_nextTaskId : (s.setTask id t).nextTaskId = s.nextTaskId := rfl
@[simp] theorem setTask_currentTaskId : (s.setTask id t).currentTaskId = s.currentTaskId := rfl
@[simp] theorem setTask_readyQueue : (s.setTask id t).readyQueue = s.readyQueue := rfl
@[simp] theorem setTask_readyVec (p : UInt8) : (s.setTask id t).readyVec p = s.readyVec p := rfl
@[simp] theorem setTask_delayQueue : (s.setTask id t).delayQueue = s.delayQueue := rfl

@[simp] theorem task?_setTask :
    (s.setTask id t).task? i = if i = id then some t else s.task? i := by
  unfold task? setTask
  split_ifs with h
  · subst h; simp
  · simp [AList.lookup_insert_ne h]

theorem mem_tasks_of_task? {id : TaskId} {t : Task Fn} (h : s.task? id = some t) :
    id ∈ s.tasks := by
  rw [← AList.lookup_isSome]
  cases hl : s.tasks.lookup id with
  | none => simp [task?, hl] at h
  | some v => rfl

theorem lookup_setTask : (s.setTask id t).tasks.lookup i =
    if i = id then some (some t) else s.tasks.lookup i := by
  unfold setTask
  split_ifs with h
  · subst h; simp
  · simp [AList.lookup_insert_ne h]

/-- `m_tasks[id]` is a plain access when `m_tasks` has a task for `id`. -/
theorem subscript_of_task? {id : TaskId} {t : Task Fn} (h : s.task? id = some t) :
    s.subscript id = s := by
  simp [subscript, s.mem_tasks_of_task? h]

end

/-! ### Adding to and removing from the ready queue -/

section

variable (id : TaskId)

@[simp] theorem addToReadyQueue_running :
    (s.addToReadyQueue id).running = s.running := by unfold addToReadyQueue; split <;> rfl
@[simp] theorem addToReadyQueue_tickCount :
    (s.addToReadyQueue id).tickCount = s.tickCount := by unfold addToReadyQueue; split <;> rfl
@[simp] theorem addToReadyQueue_nextTaskId :
    (s.addToReadyQueue id).nextTaskId = s.nextTaskId := by unfold addToReadyQueue; split <;> rfl
@[simp] theorem addToReadyQueue_currentTaskId :
    (s.addToReadyQueue id).currentTaskId = s.currentTaskId := by
  unfold addToReadyQueue; split <;> rfl
@[simp] theorem addToReadyQueue_tasks :
    (s.addToReadyQueue id).tasks = s.tasks := by unfold addToReadyQueue; split <;> rfl
@[simp] theorem addToReadyQueue_delayQueue :
    (s.addToReadyQueue id).delayQueue = s.delayQueue := by
  unfold addToReadyQueue; split <;> rfl
@[simp] theorem addToReadyQueue_task? (i : TaskId) :
    (s.addToReadyQueue id).task? i = s.task? i := by simp [task?]

@[simp] theorem removeFromReadyQueue_running :
    (s.removeFromReadyQueue id).running = s.running := by
  unfold removeFromReadyQueue; repeat' split
  all_goals rfl
@[simp] theorem removeFromReadyQueue_tickCount :
    (s.removeFromReadyQueue id).tickCount = s.tickCount := by
  unfold removeFromReadyQueue; repeat' split
  all_goals rfl
@[simp] theorem removeFromReadyQueue_nextTaskId :
    (s.removeFromReadyQueue id).nextTaskId = s.nextTaskId := by
  unfold removeFromReadyQueue; repeat' split
  all_goals rfl
@[simp] theorem removeFromReadyQueue_currentTaskId :
    (s.removeFromReadyQueue id).currentTaskId = s.currentTaskId := by
  unfold removeFromReadyQueue; repeat' split
  all_goals rfl
@[simp] theorem removeFromReadyQueue_tasks :
    (s.removeFromReadyQueue id).tasks = s.tasks := by
  unfold removeFromReadyQueue; repeat' split
  all_goals rfl
@[simp] theorem removeFromReadyQueue_delayQueue :
    (s.removeFromReadyQueue id).delayQueue = s.delayQueue := by
  unfold removeFromReadyQueue; repeat' split
  all_goals rfl
@[simp] theorem removeFromReadyQueue_task? (i : TaskId) :
    (s.removeFromReadyQueue id).task? i = s.task? i := by simp [task?]

variable {s id} {t : Task Fn}

theorem readyVec_addToReadyQueue (h : s.task? id = some t) (p : UInt8) :
    (s.addToReadyQueue id).readyVec p =
      if p = t.priority ∧ id ∉ s.readyVec p then s.readyVec p ++ [id] else s.readyVec p := by
  simp only [addToReadyQueue, h, readyVec, OrderedMap.find?_insert]
  by_cases hp : p = t.priority
  · subst hp
    by_cases hm : id ∈ (s.readyQueue.find? t.priority).getD [] <;> simp [hm]
  · simp [hp]

theorem readyVec_removeFromReadyQueue (h : s.task? id = some t) (p : UInt8) :
    (s.removeFromReadyQueue id).readyVec p =
      if p = t.priority then (s.readyVec p).erase id else s.readyVec p := by
  simp only [removeFromReadyQueue, h]
  cases hv : s.readyQueue.find? t.priority with
  | none =>
    split_ifs with hp
    · subst hp; simp [readyVec, hv]
    · rfl
  | some vec =>
    by_cases he : vec.erase id = []
    · simp only [he, ↓reduceIte, readyVec, OrderedMap.find?_erase]
      by_cases hp : p = t.priority
      · subst hp; simp [hv, he]
      · simp [hp]
    · simp only [he, ↓reduceIte, readyVec, OrderedMap.find?_insert]
      by_cases hp : p = t.priority
      · subst hp; simp [hv]
      · simp [hp]

end

/-- No vector in the ready map is empty. -/
def NoEmptyVec : Prop := ∀ p, s.readyQueue.find? p ≠ some []

variable {s} {id : TaskId}

theorem NoEmptyVec.addToReadyQueue (h : s.NoEmptyVec) : (s.addToReadyQueue id).NoEmptyVec := by
  intro p
  unfold Scheduler.addToReadyQueue
  split
  · exact h p
  · rename_i t _
    simp only [OrderedMap.find?_insert]
    split_ifs with hp hm
    · intro he
      simp [Option.some.inj he] at hm
    · simp
    · exact h p

theorem NoEmptyVec.removeFromReadyQueue (h : s.NoEmptyVec) :
    (s.removeFromReadyQueue id).NoEmptyVec := by
  intro p
  unfold Scheduler.removeFromReadyQueue
  repeat' split
  · exact h p
  · exact h p
  · simp only [OrderedMap.find?_erase]
    split_ifs
    · simp
    · exact h p
  · rename_i he
    simp only [OrderedMap.find?_insert]
    split_ifs
    · simpa using he
    · exact h p

/-! ### Picking a task -/

/-- `pickNextTask` finds nothing only when every vector is empty. -/
theorem pickNextTask_idle (h : ∀ p, s.readyVec p = []) : s.pickNextTask = (s, idleTaskId) := by
  have : (s.readyQueue.entries.find? fun e => e.2 ≠ []) = none := by
    rw [List.find?_eq_none]
    rintro ⟨p, vec⟩ he
    have := h p
    rw [readyVec, OrderedMap.mem_entries_iff.1 he] at this
    simpa using this
  rw [pickNextTask, this]

/-- What `pickNextTask` does otherwise: it takes the front of the vector of the highest
priority in use and moves it to the back of that vector. -/
theorem pickNextTask_spec {q : UInt8} (h : s.readyVec q ≠ []) :
    ∃ (p : UInt8) (id : TaskId) (rest : List TaskId)
      (rq : OrderedMap UInt8 (List TaskId) (· > ·)),
      s.readyVec p = id :: rest ∧ (∀ p', s.readyVec p' ≠ [] → p' ≤ p) ∧
      s.pickNextTask = ({ s with readyQueue := rq }, id) ∧
      ∀ p', rq.find? p' = if p' = p then some (rest ++ [id]) else s.readyQueue.find? p' := by
  have hv : ∃ vec, s.readyQueue.find? q = some vec ∧ vec ≠ [] := by
    cases hq : s.readyQueue.find? q with
    | none => simp [readyVec, hq] at h
    | some vec => exact ⟨vec, rfl, by simpa [readyVec, hq] using h⟩
  obtain ⟨vec, hq, hne⟩ := hv
  obtain ⟨⟨p, front⟩, he⟩ : ∃ e, s.readyQueue.entries.find? (fun e => e.2 ≠ []) = some e :=
    Option.isSome_iff_exists.1
      (List.find?_isSome.2 ⟨(q, vec), OrderedMap.mem_entries_iff.2 hq, by simpa using hne⟩)
  have hfront : front ≠ [] := by simpa using List.find?_some he
  have hp : s.readyQueue.find? p = some front :=
    OrderedMap.mem_entries_iff.1 (List.mem_of_find?_eq_some he)
  obtain ⟨id, rest, rfl⟩ := List.exists_cons_of_ne_nil hfront
  -- every entry before the one found is empty, every entry after it has a lower priority
  have htop : ∀ p', s.readyVec p' ≠ [] → p' ≤ p := by
    intro p' hp'
    obtain ⟨vec', hq', hne'⟩ : ∃ vec', s.readyQueue.find? p' = some vec' ∧ vec' ≠ [] := by
      cases hc : s.readyQueue.find? p' with
      | none => simp [readyVec, hc] at hp'
      | some v => exact ⟨v, rfl, by simpa [readyVec, hc] using hp'⟩
    obtain ⟨-, as, bs, hsplit, has⟩ := List.find?_eq_some_iff_append.1 he
    have hmem := OrderedMap.mem_entries_iff.2 hq'
    have hsorted := s.readyQueue.sorted
    rw [hsplit] at hmem hsorted
    rcases List.mem_append.1 hmem with hm | hm
    · exact absurd hne' (by simpa using has _ hm)
    · rcases List.mem_cons.1 hm with hm | hm
      · exact UInt8.le_of_eq (congrArg Prod.fst hm)
      · have := (List.pairwise_cons.1 (List.pairwise_append.1 hsorted).2.1).1 _ hm
        exact UInt8.le_of_lt this
  refine ⟨p, id, rest, ?_⟩
  by_cases hr : rest = []
  · refine ⟨s.readyQueue, by simp [readyVec, hp], htop, by rw [pickNextTask, he]; simp [hr], ?_⟩
    intro p'
    split_ifs with h'
    · rw [h', hp, hr]; rfl
    · rfl
  · exact ⟨s.readyQueue.insert p (rest ++ [id]), by simp [readyVec, hp], htop,
      by rw [pickNextTask, he]; simp [hr], fun p' => OrderedMap.find?_insert ..⟩

/-! ### Waking delayed tasks -/

/-- The delay of task `id` is over. -/
def Expired (s : Scheduler Fn) (id : TaskId) : Prop :=
  ∃ t, s.task? id = some t ∧ t.delayUntilTick ≤ s.tickCount

theorem wake_cons_of_not_expired {rest : List TaskId} (h : ¬ s.Expired id) :
    s.wake (id :: rest) = ((s.wake rest).1, id :: (s.wake rest).2) := by
  cases ht : s.task? id with
  | none => simp [wake, ht]
  | some t =>
    have : ¬ t.delayUntilTick ≤ s.tickCount := fun hle => h ⟨t, ht, hle⟩
    simp only [wake, ht, this, ↓reduceIte]

theorem wake_cons_of_expired {rest : List TaskId} {t : Task Fn} (ht : s.task? id = some t)
    (h : t.delayUntilTick ≤ s.tickCount) :
    s.wake (id :: rest) =
      ((s.setTask id (t.setState .ready)).addToReadyQueue id).wake rest := by
  simp only [wake, ht, h, ↓reduceIte]

theorem wake_of_not_expired {ids : List TaskId} (h : ∀ id ∈ ids, ¬ s.Expired id) :
    s.wake ids = (s, ids) := by
  induction ids with
  | nil => rfl
  | cons id rest ih =>
    rw [wake_cons_of_not_expired (h id List.mem_cons_self),
      ih fun i hi => h i (List.mem_cons_of_mem _ hi)]

theorem processDelayQueue_of_not_expired (h : ∀ id ∈ s.delayQueue, ¬ s.Expired id) :
    s.processDelayQueue = s := by
  rw [processDelayQueue, wake_of_not_expired h]

theorem expired_wakeOne {t : Task Fn} (ht : s.task? id = some t) (i : TaskId) :
    ((s.setTask id (t.setState .ready)).addToReadyQueue id).Expired i ↔ s.Expired i := by
  simp only [Expired, addToReadyQueue_task?, task?_setTask, addToReadyQueue_tickCount,
    setTask_tickCount]
  split_ifs with hi
  · subst hi; simp [ht]
  · rfl

/-- `s'` has the counters of `s`, and runs if `s` does. -/
structure SameCounters (s s' : Scheduler Fn) : Prop where
  running : s'.running = s.running
  tickCount : s'.tickCount = s.tickCount
  nextTaskId : s'.nextTaskId = s.nextTaskId

/-- What the loop of `processDelayQueue` does to the delays `ids`: it changes tasks, ready vectors
and nothing else; a task it changes was expired, becomes ready and keeps its deadline. -/
structure Woken (s : Scheduler Fn) (ids : List TaskId) : Prop where
  counters : SameCounters s (s.wake ids).1
  currentTaskId : (s.wake ids).1.currentTaskId = s.currentTaskId
  mem_delays : ∀ i, i ∈ (s.wake ids).2 ↔ i ∈ ids ∧ ¬ s.Expired i
  unchanged : ∀ i, ¬ (i ∈ ids ∧ s.Expired i) → (s.wake ids).1.task? i = s.task? i
  ready : ∀ i t, i ∈ ids → s.task? i = some t → t.delayUntilTick ≤ s.tickCount →
    (s.wake ids).1.task? i = some (t.setState .ready)

theorem Woken.cons_of_expired {rest : List TaskId} {t : Task Fn} (ht : s.task? id = some t)
    (hle : t.delayUntilTick ≤ s.tickCount)
    (h : Woken ((s.setTask id (t.setState .ready)).addToReadyQueue id) rest) :
    Woken s (id :: rest) := by
  have he : s.Expired id := ⟨t, ht, hle⟩
  have hwake : s.wake (id :: rest) = _ := wake_cons_of_expired ht hle
  set u := (s.setTask id (t.setState .ready)).addToReadyQueue id with hu
  have htask : ∀ i, u.task? i = if i = id then some (t.setState .ready) else s.task? i := by
    simp [hu]
  refine ⟨?_, ?_, fun i => ?_, fun i hn => ?_, fun i v hm hv hv' => ?_⟩ <;> rw [hwake]
  · exact ⟨by simpa [hu] using h.counters.running, by simpa [hu] using h.counters.tickCount,
      by simpa [hu] using h.counters.nextTaskId⟩
  · simpa [hu] using h.currentTaskId
  · rw [h.mem_delays, expired_wakeOne ht, List.mem_cons]
    constructor
    · exact fun ⟨hm, hn⟩ => ⟨.inr hm, hn⟩
    · rintro ⟨rfl | hm, hn⟩
      · exact absurd he hn
      · exact ⟨hm, hn⟩
  · have hi : i ≠ id := by
      rintro rfl
      exact hn ⟨List.mem_cons_self, he⟩
    rw [h.unchanged i fun hm => hn ⟨List.mem_cons_of_mem _ hm.1, (expired_wakeOne ht i).1 hm.2⟩,
      htask, if_neg hi]
  · by_cases hi : i = id
    · -- the id may occur again in `rest`, and the task is then woken again
      subst hi
      obtain rfl : t = v := Option.some.inj (ht.symm.trans hv)
      have hself : u.task? i = some (t.setState .ready) := by rw [htask, if_pos rfl]
      by_cases hr : i ∈ rest
      · exact h.ready i (t.setState .ready) hr hself (by simpa [hu] using hle)
      · rw [h.unchanged i fun hm => hr hm.1, hself]
    · have hr : i ∈ rest := (List.mem_cons.1 hm).resolve_left hi
      exact h.ready i v hr (by rw [htask, if_neg hi, hv]) (by simpa [hu] using hv')

theorem Woken.cons_of_not_expired {rest : List TaskId} (he : ¬ s.Expired id) (h : Woken s rest) :
    Woken s (id :: rest) := by
  have hwake : s.wake (id :: rest) = _ := wake_cons_of_not_expired he
  refine ⟨?_, ?_, fun i => ?_, fun i hn => ?_, fun i v hm hv hv' => ?_⟩ <;> rw [hwake]
  · exact h.counters
  · exact h.currentTaskId
  · rw [List.mem_cons, h.mem_delays, List.mem_cons]
    constructor
    · rintro (rfl | ⟨hm, hn⟩)
      · exact ⟨.inl rfl, he⟩
      · exact ⟨.inr hm, hn⟩
    · rintro ⟨rfl | hm, hn⟩
      · exact .inl rfl
      · exact .inr ⟨hm, hn⟩
  · exact h.unchanged i fun hm => hn ⟨List.mem_cons_of_mem _ hm.1, hm.2⟩
  · rcases List.mem_cons.1 hm with rfl | hm
    · exact absurd ⟨v, hv, hv'⟩ he
    · exact h.ready i v hm hv hv'

theorem woken (ids : List TaskId) (s : Scheduler Fn) : Woken s ids := by
  induction ids generalizing s with
  | nil => exact ⟨⟨rfl, rfl, rfl⟩, rfl, by simp [wake], fun _ _ => rfl, by simp⟩
  | cons id rest ih =>
    by_cases he : s.Expired id
    · obtain ⟨t, ht, hle⟩ := he
      exact .cons_of_expired ht hle (ih _)
    · exact .cons_of_not_expired he (ih s)

section

variable (s)

theorem processDelayQueue_counters : SameCounters s s.processDelayQueue :=
  have h := (woken s.delayQueue s).counters
  ⟨h.running, h.tickCount, h.nextTaskId⟩

@[simp] theorem processDelayQueue_tickCount : s.processDelayQueue.tickCount = s.tickCount :=
  s.processDelayQueue_counters.tickCount

@[simp] theorem processDelayQueue_currentTaskId :
    s.processDelayQueue.currentTaskId = s.currentTaskId :=
  (woken s.delayQueue s).currentTaskId

theorem mem_processDelayQueue_delayQueue {i : TaskId} :
    i ∈ s.processDelayQueue.delayQueue ↔ i ∈ s.delayQueue ∧ ¬ s.Expired i :=
  (woken s.delayQueue s).mem_delays i

theorem processDelayQueue_task?_of_not {i : TaskId} (h : ¬ (i ∈ s.delayQueue ∧ s.Expired i)) :
    s.processDelayQueue.task? i = s.task? i :=
  (woken s.delayQueue s).unchanged i h

theorem processDelayQueue_task?_of_expired {i : TaskId} {t : Task Fn} (hm : i ∈ s.delayQueue)
    (ht : s.task? i = some t) (hle : t.delayUntilTick ≤ s.tickCount) :
    s.processDelayQueue.task? i = some (t.setState .ready) :=
  (woken s.delayQueue s).ready i t hm ht hle

end

end Scheduler

end Rtos

end EFS
