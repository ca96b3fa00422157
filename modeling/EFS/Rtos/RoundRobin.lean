import EFS.Rtos.Delay

/-!
# Round robin at the top priority

`pickNextTask` takes the front of the ready vector of the highest priority and moves it to the
back, and `yield` moves the current task to the back first.  `executed_once` : in a window of as
many `schedule` and `yield` calls as that vector has tasks, each of them is executed exactly once,
and nothing else is.

The proof follows the vector as `remaining ++ done` : the tasks still to be executed, and those
executed in the window, the last of which is current.
-/

namespace EFS

namespace Rtos

variable {Fn : Type}

/-- The call picks a task. -/
def Call.picks : Call Fn → Bool
  | .schedule => true
  | .yield => true
  | _ => false

/-- The label is a call that may hand the CPU to another task. -/
def Label.picks : Label Fn → Bool
  | .call o _ => o.picks
  | _ => false

/-- How many `schedule` and `yield` calls are made. -/
def picks (ls : List (Label Fn)) : ℕ := ls.countP Label.picks

/-- The tasks whose functions are executed, in order. -/
def executed (ls : List (Label Fn)) : List TaskId :=
  ls.filterMap fun l => l.entered.map Execution.task

/-- The only operations called are `schedule`, `yield` and `tick`. -/
def OnlyPicksAndTicks (ls : List (Label Fn)) : Prop :=
  ∀ o e, .call o e ∈ ls → o = .schedule ∨ o = .yield ∨ o = .tick

/-- The highest priority in use is `p`, its ready vector is `vec`, and no delay ends within `left`
ticks. -/
structure Window (s : Scheduler Fn) (p : UInt8) (vec : List TaskId) (left : ℕ) : Prop where
  coherent : s.Coherent
  running : s.running = true
  vec : s.readyVec p = vec
  top : ∀ q, s.readyVec q ≠ [] → q ≤ p
  waiting : ∀ i t, s.task? i = some t → t.state = .blocked →
    s.tickCount.toNat + left < t.delayUntilTick.toNat

namespace Window

variable {s : Scheduler Fn} {p : UInt8} {vec : List TaskId} {left : ℕ}

theorem not_expired (h : Window s p vec left) : ∀ i ∈ s.delayQueue, ¬ s.Expired i := by
  rintro i hi ⟨t, ht, hle⟩
  obtain ⟨u, hu, hb⟩ := (h.coherent.mem_delay i).1 hi
  obtain rfl : t = u := Option.some.inj (ht.symm.trans hu)
  have := h.waiting i t ht hb
  have := UInt64.le_iff_toNat_le.1 hle
  omega

/-- `schedule` executes the front of the vector and moves it to the back. -/
theorem schedule {r : TaskId} {rest : List TaskId} (h : Window s p (r :: rest) left) :
    (s.schedule.frame?.map Execution.task) = some r ∧
      Window s.schedule.state p (rest ++ [r]) left ∧ s.schedule.state.currentTaskId = r := by
  have hpdq := Scheduler.processDelayQueue_of_not_expired h.not_expired
  obtain ⟨id, t, hd⟩ := h.coherent.decision h.running
  have hid := hd.id_eq
  have ht := hd.picked
  have hrq := hd.readyQueue
  have htask := hd.tasks
  rw [hpdq] at hid ht hrq
  simp only [hpdq] at htask
  -- the front of the vector of `p` is picked, and it is runnable
  have hne : s.readyVec p ≠ [] := by rw [h.vec]; simp
  obtain ⟨p', id', rest', rq, hp', htop', hpick, hfind⟩ := Scheduler.pickNextTask_spec hne
  obtain rfl : p' = p := UInt8.le_antisymm (h.top p' (by rw [hp']; simp)) (htop' p hne)
  rw [h.vec, List.cons.injEq] at hp'
  obtain ⟨hr', hrest'⟩ := hp'
  subst hr' hrest'
  rw [hpick] at hid hrq
  obtain rfl : r = id := hid.symm
  have hr : t.Runnable := by
    obtain ⟨u, hu, -, hur⟩ := (h.coherent.mem_ready r p').1 (by rw [h.vec]; simp)
    rwa [Option.some.inj (ht.symm.trans hu)]
  have hvec : ∀ q, s.schedule.state.readyVec q = if q = p' then rest ++ [r] else s.readyVec q := by
    intro q
    rw [Scheduler.readyVec, hrq, hfind]
    split_ifs <;> rfl
  have hsettled := h.coherent.settled_schedule h.running
  obtain ⟨f, -, he⟩ := hd.entered hr
  refine ⟨by rw [he]; rfl, ⟨hsettled.toCoherent, hd.counters.running.trans h.running,
    by rw [hvec, if_pos rfl], ?_, ?_⟩, hd.currentTaskId⟩
  · intro q hq
    rw [hvec] at hq
    split_ifs at hq with hq'
    · exact hq' ▸ UInt8.le_refl _
    · exact h.top q hq
  · intro i u hu hb
    rw [htask] at hu
    rw [hd.counters.tickCount]
    by_cases hi : i = r
    · rw [if_pos hi, if_pos hr, Option.some.injEq] at hu
      rw [← hu, Task.run_state] at hb
      cases hb
    · rw [if_neg hi] at hu
      obtain ⟨v, hv, rfl⟩ := Option.map_eq_some_iff.1 hu
      rw [Task.relinquish_delayUntilTick]
      exact h.waiting i v hv ((Task.relinquish_blocked v).1 hb)

/-- `yield` first moves the current task to the back, if it is in the vector. -/
theorem requeueCurrent (h : Window s p vec left) :
    ∃ vec', Window s.requeueCurrent p vec' left ∧
      (vec' = vec ∨ s.currentTaskId ∈ vec ∧
        vec' = vec.erase s.currentTaskId ++ [s.currentTaskId]) := by
  have hcoh := h.coherent.coherent_requeueCurrent
  rcases h.coherent.requeueCurrent with he | ⟨t, ht, hr, rq, he, -, hvec⟩
  · exact ⟨vec, by rwa [he], .inl rfl⟩
  have hvec' : ∀ q, s.requeueCurrent.readyVec q = if q = t.priority then
      (s.readyVec q).erase s.currentTaskId ++ [s.currentTaskId] else s.readyVec q := by
    intro q
    rw [he]
    exact hvec q
  -- the current task is in the vector of its own priority, which need not be `p`
  have hmem : s.currentTaskId ∈ s.readyVec t.priority :=
    (h.coherent.mem_ready _ _).2 ⟨t, ht, rfl, .inr hr⟩
  have htop : ∀ q, s.requeueCurrent.readyVec q ≠ [] → q ≤ p := by
    intro q hq
    rw [hvec'] at hq
    split_ifs at hq with hq'
    · refine h.top q ?_
      intro hn
      rw [← hq', hn] at hmem
      cases hmem
    · exact h.top q hq
  have hcnt := h.coherent.requeueCurrent_fields.1
  have hwait : ∀ i u, s.requeueCurrent.task? i = some u → u.state = .blocked →
      s.requeueCurrent.tickCount.toNat + left < u.delayUntilTick.toNat := by
    intro i u hu hb
    rw [hcnt.tickCount]
    rcases h.coherent.requeueCurrent_task? i with he | ⟨-, v, -, -, he⟩
    · exact h.waiting i u (he ▸ hu) hb
    · rw [he, Option.some.injEq] at hu
      rw [← hu] at hb
      cases hb
  refine ⟨_, ⟨hcoh, hcnt.running.trans h.running, hvec' p, htop, hwait⟩, ?_⟩
  split_ifs with hp
  · exact .inr ⟨by rw [← h.vec, hp]; exact hmem, by rw [h.vec]⟩
  · exact .inl h.vec

/-- A tick with which no delay ends changes nothing else. -/
theorem tick (h : Window s p vec (left + 1)) :
    Window s.tick p vec left ∧ s.tick.currentTaskId = s.currentTaskId := by
  set u : Scheduler Fn := { s with tickCount := s.tickCount + 1 } with hu
  have hle : u.tickCount.toNat ≤ s.tickCount.toNat + 1 := by
    rw [hu]
    simp only [UInt64.toNat_add, UInt64.reduceToNat]
    exact Nat.mod_le _ _
  have hnot : ∀ i ∈ u.delayQueue, ¬ u.Expired i := by
    rintro i hi ⟨t, ht, hle'⟩
    obtain ⟨v, hv, hb⟩ := (h.coherent.mem_delay i).1 hi
    obtain rfl : t = v := Option.some.inj (ht.symm.trans hv)
    have := h.waiting i t ht hb
    have := UInt64.le_iff_toNat_le.1 hle'
    omega
  have htick : s.tick = u := Scheduler.processDelayQueue_of_not_expired hnot
  rw [htick]
  have hcoh := h.coherent
  refine ⟨⟨⟨⟨hcoh.idle, hcoh.nonnull, hcoh.task_ok, hcoh.noEmptyVec, hcoh.ready_nodup,
    hcoh.mem_ready, hcoh.delay_nodup, hcoh.mem_delay⟩, hcoh.current, hcoh.running_current⟩,
    h.running, h.vec, h.top, ?_⟩, rfl⟩
  intro i t ht hb
  have := h.waiting i t ht hb
  omega

end Window

/-- `remaining ++ done` is the vector of a window in which the tasks `done` have been executed. -/
structure Progress (s : Scheduler Fn) (p : UInt8) (remaining done : List TaskId) (left : ℕ) :
    Prop extends Window s p (remaining ++ done) left where
  last : ∀ ks k, done = ks ++ [k] → s.currentTaskId = k

namespace Progress

variable {s : Scheduler Fn} {p : UInt8} {r : TaskId} {remaining done : List TaskId} {left : ℕ}

theorem schedule (h : Progress s p (r :: remaining) done left) :
    (s.schedule.frame?.map Execution.task) = some r ∧
      Progress s.schedule.state p remaining (done ++ [r]) left := by
  obtain ⟨hframe, hwin, hcur⟩ := h.toWindow.schedule
  have hwin : Window s.schedule.state p (remaining ++ done ++ [r]) left := hwin
  rw [List.append_assoc] at hwin
  refine ⟨hframe, hwin, ?_⟩
  intro ks k hk
  rw [hcur]
  exact (List.append_inj' hk rfl).2 |> List.singleton_inj.1

/-- `yield` may change the order of the tasks that are still to be executed, if none has been. -/
theorem yield (h : Progress s p (r :: remaining) done left) :
    ∃ r' remaining', (r' :: remaining').Perm (r :: remaining) ∧
      (s.yield.frame?.map Execution.task) = some r' ∧
      Progress s.yield.state p remaining' (done ++ [r']) left := by
  have hy : s.yield = s.requeueCurrent.schedule := by simp [Scheduler.yield, h.running]
  have hcur := h.coherent.requeueCurrent_fields.2.1
  rw [hy]
  obtain ⟨vec', hwin, hvec'⟩ := h.toWindow.requeueCurrent
  -- moving the current task to the back changes the order of those that remain at most
  have hprog : ∃ r' remaining', (r' :: remaining').Perm (r :: remaining) ∧
      Progress s.requeueCurrent p (r' :: remaining') done left := by
    have hlast : ∀ ks k, done = ks ++ [k] → s.requeueCurrent.currentTaskId = k :=
      fun ks k hk => hcur.trans (h.last ks k hk)
    rcases hvec' with rfl | ⟨hm, rfl⟩
    · exact ⟨r, remaining, .refl _, hwin, hlast⟩
    · rcases done.eq_nil_or_concat with rfl | ⟨ks, k, hk⟩
      · -- nothing has been executed yet: the current task may be anywhere in the vector
        rw [List.append_nil] at hm hwin
        have hperm : ((r :: remaining).erase s.currentTaskId ++ [s.currentTaskId]).Perm
            (r :: remaining) :=
          (List.perm_append_singleton _ _).trans (List.perm_cons_erase hm).symm
        obtain ⟨r', remaining', he⟩ := List.exists_cons_of_ne_nil
          (l := (r :: remaining).erase s.currentTaskId ++ [s.currentTaskId]) (by simp)
        rw [he] at hperm hwin
        exact ⟨r', remaining', hperm, by rwa [← List.append_nil (r' :: remaining')] at hwin, hlast⟩
      · -- the current task was executed last, so it is at the back already
        rw [List.concat_eq_append] at hk
        have hc := h.last ks k hk
        have hnd : (r :: remaining ++ done).Nodup := h.vec ▸ h.coherent.ready_nodup p
        have hnot : k ∉ r :: remaining ++ ks := by
          rw [hk, ← List.append_assoc] at hnd
          intro hmem
          exact (List.nodup_append.1 hnd).2.2 k hmem k (List.mem_singleton_self k) rfl
        have hsame : (r :: remaining ++ done).erase s.currentTaskId ++ [s.currentTaskId] =
            r :: remaining ++ done := by
          rw [hc, hk, ← List.append_assoc, List.erase_append_right _ hnot]
          simp
        rw [hsame] at hwin
        exact ⟨r, remaining, .refl _, hwin, hlast⟩
  obtain ⟨r', remaining', hperm, hprog⟩ := hprog
  exact ⟨r', remaining', hperm, hprog.schedule⟩

end Progress

/-! ### The window, step by step -/

theorem picks_cons (l : Label Fn) (ls : List (Label Fn)) :
    picks (l :: ls) = picks ls + picks [l] := by
  have happend : picks ([l] ++ ls) = picks [l] + picks ls := List.countP_append
  exact happend.trans (Nat.add_comm _ _)

theorem executed_cons (l : Label Fn) (ls : List (Label Fn)) :
    executed (l :: ls) = executed [l] ++ executed ls :=
  List.filterMap_append (l := [l])

theorem executed_singleton (l : Label Fn) :
    executed [l] = (l.entered.map Execution.task).toList := by
  rw [executed, List.filterMap_cons]
  cases l.entered <;> rfl

/-- **Step lemma.**  A pick executes one of the tasks left, and every other step none. -/
theorem Progress.step {c d : Counted Fn × List (Execution Fn)} {l : Label Fn} {p : UInt8}
    {remaining done : List TaskId} {left : ℕ}
    (h : Progress c.1.sched p remaining done (left + ticks [l])) (hst : (machine Fn).step c l d)
    (hl : OnlyPicksAndTicks [l]) (hn : picks [l] ≤ remaining.length) :
    ∃ remaining' done', Progress d.1.sched p remaining' done' left ∧
      (executed [l] ++ remaining').Perm remaining ∧ (executed [l]).length = picks [l] := by
  rw [executed_singleton]
  rcases machine_step hst with ⟨o, rfl, -, hd⟩ | ⟨hno, hent, hd⟩
  · have hsched : d.1.sched = (c.1.sched.perform o).state := congrArg Counted.sched hd
    rw [hsched]
    rcases hl o _ (List.mem_singleton_self _) with rfl | rfl | rfl
    · -- `schedule` executes the first of those that remain
      obtain ⟨r, remaining, rfl⟩ := List.exists_cons_of_length_pos hn
      have h : Progress c.1.sched p (r :: remaining) done left := h
      obtain ⟨hframe, hprog⟩ := h.schedule
      have hframe : (c.1.sched.perform .schedule).frame?.map Execution.task = some r := hframe
      refine ⟨remaining, done ++ [r], hprog, ?_, ?_⟩ <;> simp only [Reentrant.Label.entered, hframe]
      · exact .refl _
      · rfl
    · obtain ⟨r, remaining, rfl⟩ := List.exists_cons_of_length_pos hn
      have h : Progress c.1.sched p (r :: remaining) done left := h
      obtain ⟨r', remaining', hperm, hframe, hprog⟩ := h.yield
      have hframe : (c.1.sched.perform .yield).frame?.map Execution.task = some r' := hframe
      refine ⟨remaining', done ++ [r'], hprog, ?_, ?_⟩ <;>
        simp only [Reentrant.Label.entered, hframe]
      · exact hperm
      · rfl
    · -- a tick wakes nobody, as the next deadline is later
      have hwindow : Window c.1.sched p (remaining ++ done) (left + 1) := h.toWindow
      obtain ⟨hwin, hcur⟩ := hwindow.tick
      exact ⟨remaining, done, ⟨hwin, fun ks k hk => hcur.trans (h.last ks k hk)⟩, .refl _, rfl⟩
  · -- the function of a task returns or throws
    have hzero : ticks [l] = 0 ∧ picks [l] = 0 := by
      cases l with
      | call o e => exact absurd rfl (hno o e)
      | ret e => exact ⟨rfl, rfl⟩
      | throw => exact ⟨rfl, rfl⟩
    rw [hzero.1] at h
    rw [hd, hent, hzero.2]
    exact ⟨remaining, done, h, .refl _, rfl⟩

/-- **Run lemma.**  As many picks as there are tasks left execute these tasks, in some order. -/
theorem Progress.run {c d : Counted Fn × List (Execution Fn)} {ls : List (Label Fn)}
    (hr : (machine Fn).Run c ls d) {p : UInt8} {remaining done : List TaskId}
    (h : Progress c.1.sched p remaining done (ticks ls)) (hls : OnlyPicksAndTicks ls)
    (hn : picks ls = remaining.length) : (executed ls).Perm remaining := by
  induction hr generalizing remaining done with
  | nil c => rw [List.eq_nil_of_length_eq_zero hn.symm]; exact .refl _
  | @cons c d e l ls hst _ ih =>
    rw [ticks_cons] at h
    rw [picks_cons] at hn
    have hl : OnlyPicksAndTicks [l] := fun o x hm =>
      hls o x (List.mem_singleton.1 hm ▸ List.mem_cons_self)
    obtain ⟨remaining', done', hprog, hperm, hlen⟩ := h.step hst hl (by omega)
    -- the step has executed as many of the tasks left as it has picked
    have hleft : picks ls = remaining'.length := by
      have := hperm.length_eq
      rw [List.length_append, hlen] at this
      omega
    rw [executed_cons]
    exact ((ih hprog (fun o x hm => hls o x (List.mem_cons_of_mem _ hm)) hleft).append_left
      _).trans hperm

/-- **Round robin.**  In a window of as many `schedule` and `yield` calls as there are tasks in the
highest priority class, with any number of ticks in between that end no delay, each of these
tasks is executed exactly once and no other task is. -/
theorem executed_once {c d : Counted Fn × List (Execution Fn)} {ls : List (Label Fn)} {p : UInt8}
    (hc : (machine Fn).Reachable start c) (hs : c.1.sched.running = true)
    (htop : ∀ q, c.1.sched.readyVec q ≠ [] → q ≤ p)
    (hr : (machine Fn).Run c ls d) (hls : OnlyPicksAndTicks ls)
    (hn : picks ls = (c.1.sched.readyVec p).length)
    (hwait : ∀ i t, c.1.sched.task? i = some t → t.state = .blocked →
      c.1.sched.tickCount.toNat + ticks ls < t.delayUntilTick.toNat) (i : TaskId) :
    (executed ls).count i = if i ∈ c.1.sched.readyVec p then 1 else 0 := by
  have hsettled := (invariant_of_reachable hc).settled
  have hprog : Progress c.1.sched p (c.1.sched.readyVec p) [] (ticks ls) :=
    ⟨⟨hsettled.toCoherent, hs, by rw [List.append_nil], htop, hwait⟩, by simp⟩
  rw [(hprog.run hr hls hn).count_eq]
  split_ifs with hi
  · exact List.count_eq_one_of_mem (hsettled.ready_nodup p) hi
  · exact List.count_eq_zero_of_not_mem hi

/-- Two tasks of the same priority, and a window with a tick between its two calls. -/
def twoTasks : Counted Unit × List (Execution Unit) :=
  (component Unit).after start [.createTask "a" (some ()) 2 1024, .createTask "b" (some ()) 2 1024,
    .start]

/-- Two tasks of one priority that run in turn. -/
def twoPicks : List (Label Unit) :=
  [.call .schedule (some ⟨1, .user ()⟩), .ret none, .call .tick none,
    .call .yield (some ⟨2, .user ()⟩), .ret none]

theorem executed_once_twoPicks : (executed twoPicks).count 2 = 1 := by
  have hc : (machine Unit).Reachable start twoTasks := Reentrant.reachable_after (by decide)
  have hr : ∃ d, (machine Unit).Run twoTasks twoPicks d :=
    ⟨_, .cons (Reentrant.lts_call (by decide)) (.cons Reentrant.lts_ret (.cons
      (Reentrant.lts_call (by decide)) (.cons (Reentrant.lts_call (by decide))
        (.single Reentrant.lts_ret))))⟩
  obtain ⟨d, hr⟩ := hr
  have htop : ∀ q, twoTasks.1.sched.readyVec q ≠ [] → q ≤ 2 := by
    intro q hq
    have hent : ∀ e ∈ twoTasks.1.sched.readyQueue.entries, e.1 ≤ 2 := by decide
    cases hf : twoTasks.1.sched.readyQueue.find? q with
    | none => simp [Scheduler.readyVec, hf] at hq
    | some vec => exact hent (q, vec) (OrderedMap.mem_entries_iff.2 hf)
  have hls : OnlyPicksAndTicks twoPicks := by
    simp only [OnlyPicksAndTicks, twoPicks, List.mem_cons, List.not_mem_nil]
    grind
  refine (executed_once (p := 2) hc (by decide) htop hr hls (by decide) ?_
    2).trans (by decide)
  intro i t ht hb
  have hm := ((invariant_of_reachable hc).settled.mem_delay i).2 ⟨t, ht, hb⟩
  cases hm

end Rtos

end EFS
