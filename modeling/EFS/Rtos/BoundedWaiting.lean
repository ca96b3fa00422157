import EFS.Rtos.Refinement

/-!
# How long a ready task waits

A task that is ready stands in the line, behind some others of its own priority.  Whatever the
code around the scheduler does, as long as it neither suspends nor deletes the task nor resets the
scheduler: not more than these others are executed before it, of all tasks of its own or a
lower priority, and each of them once (`turns_le`).

The measure is `aheadOf`.  Tasks that wake up, are created or resumed join the line behind
their equals, `yield` sends the current task there, and a task that is suspended, deleted or delayed
leaves the line: all of this moves the waiting task forward or leaves it where it is.
-/

namespace EFS

namespace Rtos

variable {Fn : Type}

namespace Roster

/-- The task `id` waits at the priority `p`, behind at most `k` others of that priority. -/
structure Waits (a : Roster Fn) (id : TaskId) (p : UInt8) (k : ℕ) : Prop where
  known : (a.profile id).isSome
  rank : a.rank id = p
  line : IsLine a.rank a.line
  mem : id ∈ a.line
  ahead : aheadOf a.rank id a.line ≤ k
  /-- Only the idle task can be current without having been executed. -/
  current : id = a.currentTaskId → id = idleTaskId ∧ a.executing = false

/-- The operation has executed a task of the priority `p` or a lower one. -/
def turn (p : UInt8) (o : Outcome (Roster Fn) (Execution Fn)) : ℕ :=
  if o.frame?.any fun x => o.state.rank x.task ≤ p then 1 else 0

variable {a : Roster Fn} {id : TaskId} {p : UInt8} {k : ℕ}

theorem Waits.ofLine (h : a.Waits id p k) {l : List TaskId} {sl : List (TaskId × UInt64)}
    (hl : IsLine a.rank l) (hm : id ∈ l) (hahead : aheadOf a.rank id l ≤ aheadOf a.rank id a.line) :
    Waits { a with line := l, sleepers := sl } id p k :=
  ⟨h.known, h.rank, hl, hm, hahead.trans h.ahead, h.current⟩

theorem Waits.dismiss (h : a.Waits id p k) {j : TaskId} (hj : j ≠ id) :
    (a.dismiss j).Waits id p k :=
  h.ofLine (h.line.erase j) ((List.mem_erase_of_ne hj.symm).2 h.mem) (aheadOf_erase_le hj)

theorem foldl_joinLine {rank : TaskId → UInt8} (ids : List TaskId) {l : List TaskId}
    (hl : IsLine rank l) (hm : id ∈ l) :
    IsLine rank (ids.foldl (fun l i => joinLine rank i l) l) ∧
      id ∈ ids.foldl (fun l i => joinLine rank i l) l ∧
      aheadOf rank id (ids.foldl (fun l i => joinLine rank i l) l) = aheadOf rank id l := by
  induction ids generalizing l with
  | nil => exact ⟨hl, hm, rfl⟩
  | cons i ids ih =>
    obtain ⟨h1, h2, h3⟩ := ih (hl.joinLine i) (mem_joinLine.2 (.inr hm))
    exact ⟨h1, h2, h3.trans (hl.aheadOf_joinLine hm i)⟩

theorem Waits.wake (h : a.Waits id p k) : a.wake.Waits id p k := by
  obtain ⟨hl, hm, hahead⟩ := foldl_joinLine
    ((a.sleepers.filter fun e => e.2 ≤ a.tickCount).map Prod.fst) h.line h.mem
  exact h.ofLine hl hm hahead.le

theorem schedule_of_cons {i : TaskId} {rest : List TaskId} (hs : a.running = true)
    (hl : a.wake.line = i :: rest) :
    (∃ q, a.profile i = some q ∧ a.schedule = .entered { a.wake with
        line := joinLine a.rank i rest, currentTaskId := i, executing := true } ⟨i, q.function⟩) ∨
      a.profile i = none ∧ a.schedule = .returned { a.wake with
        line := joinLine a.rank i rest, currentTaskId := i, executing := true } := by
  cases hq : a.profile i with
  | none => exact .inr ⟨rfl, by simp only [Roster.schedule, hs, ↓reduceIte, hl, hq]⟩
  | some q => exact .inl ⟨q, rfl, by simp only [Roster.schedule, hs, ↓reduceIte, hl, hq]⟩

/-- **Scheduling.**  If another task is executed, it is of a higher priority, or it stood in front
of the one that waits. -/
theorem Waits.schedule (h : a.Waits id p k) (hx : ∀ x ∈ a.schedule.frame?, x.task ≠ id) :
    ∃ k', a.schedule.state.Waits id p k' ∧ k' + turn p a.schedule ≤ k := by
  by_cases hs : a.running = true
  swap
  · have hstay : a.schedule = .returned a := by simp [Roster.schedule, hs]
    rw [hstay]
    exact ⟨k, h, le_rfl⟩
  have hw := h.wake
  obtain ⟨i, rest, hl⟩ := List.exists_cons_of_ne_nil (List.ne_nil_of_mem hw.mem)
  have hline : IsLine a.rank (i :: rest) := hl ▸ hw.line
  have hmem : id ∈ i :: rest := hl ▸ hw.mem
  have hahead : aheadOf a.rank id (i :: rest) ≤ k := hl ▸ hw.ahead
  -- the one that waits is known, and is therefore executed when it comes to the front
  have hi : i ≠ id := by
    rintro rfl
    rcases schedule_of_cons hs hl with ⟨q, -, hout⟩ | ⟨hq, -⟩
    · exact hx ⟨i, q.function⟩ (by rw [hout]; rfl) rfl
    · have hknown := h.known
      rw [hq] at hknown
      cases hknown
  have hrest : id ∈ rest := (List.mem_cons.1 hmem).resolve_left (Ne.symm hi)
  rw [aheadOf_cons hi] at hahead
  set b : Roster Fn := { a.wake with
    line := joinLine a.rank i rest, currentTaskId := i, executing := true } with hb
  have hwait : b.Waits id p (aheadOf a.rank id rest) := by
    refine ⟨h.known, h.rank, hline.tail.joinLine i, mem_joinLine.2 (.inr hrest), ?_, ?_⟩
    · exact (hline.tail.aheadOf_joinLine hrest i).le
    · intro hc
      exact absurd hc (Ne.symm hi)
  refine ⟨aheadOf a.rank id rest, ?_⟩
  rcases schedule_of_cons hs hl with ⟨q, -, hout⟩ | ⟨-, hout⟩ <;> rw [hout]
  · refine ⟨hwait, ?_⟩
    have hle : p ≤ a.rank i := h.rank ▸ hline.head_le hmem
    by_cases hip : a.rank i ≤ p
    · -- a task of a lower priority does not stand in front, so this one is an equal
      have hturn : turn p (.entered b ⟨i, q.function⟩) = 1 := if_pos (decide_eq_true hip)
      rw [if_pos (le_antisymm (h.rank.symm ▸ hip) (h.rank.symm ▸ hle))] at hahead
      rwa [hturn]
    · have hturn : turn p (.entered b ⟨i, q.function⟩) = 0 :=
        if_neg fun hc => hip (of_decide_eq_true hc)
      rw [hturn]
      omega
  · refine ⟨hwait, ?_⟩
    change aheadOf a.rank id rest + 0 ≤ k
    omega

/-! ### The other operations -/

theorem Waits.ofCurrent (h : a.Waits id p k) {running executing : Bool} {tick : UInt64}
    {cur : TaskId} (hc : id = cur → id = idleTaskId ∧ executing = false) :
    Waits { a with
      running := running, tickCount := tick
      currentTaskId := cur, executing := executing } id p k :=
  ⟨h.known, h.rank, h.line, h.mem, h.ahead, hc⟩

theorem Waits.ofProfile (h : a.Waits id p k) {j : TaskId} {q : Option (Profile Fn)} {n : TaskId}
    (hj : j ∉ a.line) :
    Waits { a with profile := Function.update a.profile j q, nextTaskId := n } id p k := by
  set b : Roster Fn := { a with profile := Function.update a.profile j q, nextTaskId := n } with hb
  have hrank : ∀ i ∈ a.line, a.rank i = b.rank i := by
    intro i hi
    simp [Roster.rank, hb, ne_of_mem_of_not_mem hi hj]
  have hid := hrank id h.mem
  refine ⟨?_, hid.symm.trans h.rank, h.line.congr hrank, h.mem, ?_, h.current⟩
  · simpa [hb, ne_of_mem_of_not_mem h.mem hj] using h.known
  · exact (aheadOf_congr hid hrank).symm.le.trans h.ahead

theorem Waits.enqueue (h : a.Waits id p k) (j : TaskId) : (a.enqueue j).Waits id p k :=
  h.ofLine (h.line.joinLine j) (mem_joinLine.2 (.inr h.mem)) (h.line.aheadOf_joinLine h.mem j).le

theorem Waits.stepBack (h : a.Waits id p k) : a.stepBack.Waits id p k := by
  unfold Roster.stepBack
  split_ifs with hc
  · have hne : a.currentTaskId ≠ id := fun he => by
      have := (h.current he.symm).2
      rw [hc.1] at this
      cases this
    have hq := (h.dismiss hne).enqueue a.currentTaskId
    exact ⟨h.known, h.rank, hq.line, hq.mem, hq.ahead, fun he => absurd he.symm hne⟩
  · exact h

theorem Waits.sleep (h : a.Waits id p k) (hidle : a.currentTaskId ≠ idleTaskId) (n : UInt64) :
    (a.sleep n).Waits id p k := by
  have hne : a.currentTaskId ≠ id := fun he => hidle (he ▸ (h.current he.symm).1)
  have hd := h.dismiss hne
  exact ⟨h.known, h.rank, hd.line, hd.mem, hd.ahead, fun he => absurd he.symm hne⟩

theorem Waits.returned (h : a.Waits id p k) :
    ∃ k', (Outcome.returned (F := Execution Fn) a).state.Waits id p k' ∧
      k' + turn p (.returned a) ≤ k :=
  ⟨k, h, le_rfl⟩

theorem Waits.delete (h : a.Waits id p k) (hn : a.line.Nodup) {j : TaskId} (hj : j ≠ id)
    (hx : ∀ x ∈ (a.delete j).frame?, x.task ≠ id) :
    ∃ k', (a.delete j).state.Waits id p k' ∧ k' + turn p (a.delete j) ≤ k := by
  have hb : Waits { a.dismiss j with profile := Function.update a.profile j none } id p k :=
    (h.dismiss hj).ofProfile (a := a.dismiss j) hn.not_mem_erase
  unfold Roster.delete at hx ⊢
  split_ifs at hx ⊢
  · exact h.returned
  · refine Waits.schedule ?_ hx
    exact hb.ofCurrent fun he => ⟨he, rfl⟩
  · exact hb.returned

theorem Waits.suspend (h : a.Waits id p k) {j : TaskId} (hj : j ≠ id)
    (hx : ∀ x ∈ (a.suspend j).frame?, x.task ≠ id) :
    ∃ k', (a.suspend j).state.Waits id p k' ∧ k' + turn p (a.suspend j) ≤ k := by
  have hb : Waits { a.dismiss j with executing := a.executing && j != a.currentTaskId } id p k := by
    refine (h.dismiss hj).ofCurrent fun he => ?_
    obtain ⟨hidle, hex⟩ := h.current he
    exact ⟨hidle, by simp [hex]⟩
  unfold Roster.suspend at hx ⊢
  split_ifs at hx ⊢
  · exact h.returned
  · exact hb.schedule hx
  · exact hb.returned

/-- **Step lemma.**  An operation that leaves the waiting task alone brings it forward by the turn
that it gives to a task of its own or a lower priority, if it gives one. -/
theorem Waits.perform (h : a.Waits id p k) (hn : a.line.Nodup)
    (hknown : ∀ i ∈ a.line, (a.profile i).isSome) {o : Call Fn} (hfresh : a.FreshId o)
    (ho : ¬ o.Disturbs id) (hx : ∀ x ∈ (a.perform o).frame?, x.task ≠ id) :
    ∃ k', (a.perform o).state.Waits id p k' ∧ k' + turn p (a.perform o) ≤ k := by
  cases o with
  | createTask name function q n =>
    cases function with
    | none => exact ⟨k, h, le_rfl⟩
    | some f =>
      have hnot : a.nextTaskId ∉ a.line := by
        intro hm
        have hsome := hknown _ hm
        rw [show a.profile a.nextTaskId = none from hfresh] at hsome
        cases hsome
      exact ((h.ofProfile hnot).enqueue a.nextTaskId).returned
  | deleteTask j => exact h.delete hn ho hx
  | start => exact (h.ofCurrent h.current).returned
  | stop => exact (h.ofCurrent h.current).returned
  | schedule => exact h.schedule hx
  | yield =>
    simp only [Roster.perform] at hx ⊢
    split_ifs at hx ⊢
    · exact h.stepBack.schedule hx
    · exact h.returned
  | delay n =>
    simp only [Roster.perform] at hx ⊢
    split_ifs at hx ⊢ with hc
    · exact (h.sleep hc.2 n).schedule hx
    · exact h.returned
  | tick => exact (h.ofCurrent h.current).wake.returned
  | suspendTask j => exact h.suspend ho hx
  | resumeTask j =>
    simp only [Roster.perform]
    split_ifs
    · exact (h.enqueue j).returned
    · exact h.returned
  | reset => exact absurd trivial ho

end Roster

/-! ### Runs -/

/-- How many of the functions executed in the steps `ls` are of tasks of the priority `p` or a lower
one. -/
def Scheduler.turns (p : UInt8) : Scheduler Fn → List (Label Fn) → ℕ
  | _, [] => 0
  | s, .call o e :: ls =>
    let s' := (s.perform o).state
    (if e.any fun x => (s'.task? x.task).any fun t => t.priority ≤ p then 1 else 0) +
      turns p s' ls
  | s, _ :: ls => turns p s ls

namespace Scheduler

variable {s : Scheduler Fn} {id : TaskId} {t : Task Fn} {p : UInt8} {k : ℕ}

theorem Settled.turn_roster (h : s.Settled) {o : Call Fn} (hfresh : s.FreshId o) :
    Roster.turn p (s.roster.perform o) =
      if (s.perform o).frame?.any fun x =>
        ((s.perform o).state.task? x.task).any fun t => t.priority ≤ p then 1 else 0 := by
  rw [← h.roster_perform o hfresh, Roster.turn, Outcome.frame?_map, Outcome.state_map]
  cases hx : (s.perform o).frame? with
  | none => rfl
  | some x =>
    obtain ⟨-, -, -, -, t, ht, -, -⟩ := h.perform_entered hx
    simp [(h.perform o hfresh).rank_roster ht, ht]

theorem Settled.waits (h : s.Settled) (ht : s.task? id = some t) (hst : t.state = .ready)
    (hcur : id = s.currentTaskId → id = idleTaskId) :
    s.roster.Waits id t.priority ((s.readyVec t.priority).idxOf id) := by
  have hrank := h.rank_roster ht
  have hmem := h.mem_readyIds.2 ⟨t, ht, .inl hst⟩
  refine ⟨?_, hrank, h.ranked.isLine, hmem, ?_, fun hc => ⟨hcur hc, ?_⟩⟩
  · obtain ⟨f, hf⟩ := Option.ne_none_iff_exists'.1 (h.task_ok id t ht).2.1
    simp [ht, Task.profile, hf]
  · rw [aheadOf, hrank, roster_line, h.ranked.filter_readyIds]
  · have hself : s.task? s.currentTaskId = some t := by rw [← ht, hc]; rfl
    simp [roster, hself, hst]

end Scheduler

/-- **Bounded waiting.**  A task that is ready, and neither suspended, resumed nor deleted, is
executed before more tasks of its own or a lower priority are executed than stand in front of it in
its ready vector, whatever else is called: tasks may be created, woken, suspended, resumed, deleted
and delayed meanwhile. -/
theorem turns_le {c d : Counted Fn × List (Execution Fn)} {ls : List (Label Fn)} {id : TaskId}
    {t : Task Fn} (h : (freshMachine Fn).Reachable start c) (hr : (freshMachine Fn).Run c ls d)
    (ht : c.1.sched.task? id = some t) (hst : t.state = .ready)
    (hcur : id = c.1.sched.currentTaskId → id = idleTaskId) (hls : Undisturbed id ls)
    (hex : ¬ Executed id ls) :
    c.1.sched.turns t.priority ls ≤ (c.1.sched.readyVec t.priority).idxOf id := by
  have hset := settled_of_reachable (fun _ _ h => h) h
  have hwaits := hset.waits ht hst hcur
  generalize t.priority = p at hwaits ⊢
  generalize (c.1.sched.readyVec p).idxOf id = k at hwaits ⊢
  clear h ht hst hcur
  -- over the run; `k` bounds the turns that are left
  induction hr generalizing k with
  | nil => exact Nat.zero_le _
  | @cons c c' d l ls hstep hrun ih =>
    have hls' : Undisturbed id ls := fun o e hm => hls o e (List.mem_cons_of_mem _ hm)
    have hex' : ¬ Executed id ls := fun ⟨l, hl, hT⟩ => hex ⟨l, List.mem_cons_of_mem _ hl, hT⟩
    rcases component_step hstep with ⟨o, rfl, hfresh, hc'⟩ | ⟨hl, -, hc'⟩
    · have hroster := hset.roster_perform o hfresh
      have hnodup : c.1.sched.roster.line.Nodup := hset.nodup_readyIds
      have hknown : ∀ i ∈ c.1.sched.roster.line, (c.1.sched.roster.profile i).isSome := by
        intro i hi
        obtain ⟨t, ht, -⟩ := hset.mem_readyIds.1 hi
        obtain ⟨f, hf⟩ := Option.ne_none_iff_exists'.1 (hset.task_ok i t ht).2.1
        simp [ht, Task.profile, hf]
      -- the task itself is not executed by this step
      have hx : ∀ x ∈ (c.1.sched.roster.perform o).frame?, x.task ≠ id := by
        intro x hx he
        rw [← hroster, Outcome.frame?_map] at hx
        exact hex ⟨_, List.mem_cons_self, by
          rw [Reentrant.Label.entered, Option.mem_def.1 hx, Option.map_some, he]; rfl⟩
      obtain ⟨k', hwaits', hle⟩ := hwaits.perform hnodup hknown ((hset.freshId_roster o).1 hfresh)
        (hls o _ List.mem_cons_self) hx
      have hset' := hset.perform o hfresh
      rw [hset.turn_roster hfresh] at hle
      rw [← hroster, Outcome.state_map] at hwaits'
      rw [hc'] at ih
      have hrest := ih hls' hex' hset' k' hwaits'
      simp only [Scheduler.turns] at hrest ⊢
      omega
    · rw [hc'] at ih
      have hrest := ih hls' hex' hset k hwaits
      cases l with
      | call o e => exact absurd rfl (hl o e)
      | ret e => exact hrest
      | throw => exact hrest

/-- Three tasks of one priority, of which the first runs; the last one is behind two others. -/
def threeTasks : Counted Unit × List (Execution Unit) :=
  (component Unit).after start [.createTask "a" (some ()) 1 1024, .createTask "b" (some ()) 1 1024,
    .start, .schedule, .createTask "c" (some ()) 1 1024]

/-- The scheduler is called twice, and the bound is met: the last task is behind two others, and
these are executed. -/
theorem turns_le_threeTasks :
    threeTasks.1.sched.turns 1 ((component Unit).labels threeTasks [.schedule, .tick, .schedule]) ≤
      (threeTasks.1.sched.readyVec 1).idxOf 3 := by
  have hr : (freshMachine Unit).Reachable start threeTasks := Reentrant.reachable_after (by decide)
  have hrun : (freshMachine Unit).Run threeTasks _ _ :=
    Reentrant.run_after [.schedule, .tick, .schedule] (by decide)
  refine turns_le (t := .new 3 "c" (some (.user ())) 1 1024) hr hrun rfl rfl (by decide) ?_ ?_
  · intro o e hm
    have ho := Reentrant.mem_of_mem_labels hm
    simp only [List.mem_cons, List.not_mem_nil, or_false] at ho
    rcases ho with rfl | rfl | rfl <;> exact id
  · rintro ⟨l, hl, hT⟩
    have hnone : ∀ l ∈ (component Unit).labels threeTasks [.schedule, .tick, .schedule],
        (3 : TaskId) ∉ l.entered.map Execution.task := by decide
    exact hnone l hl hT

end Rtos

end EFS
