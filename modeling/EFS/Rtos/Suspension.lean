import EFS.Rtos.Delay

/-!
# Suspended tasks

`StaysSuspended A` is what `suspendTask` promises in the runs of `A`: the task is suspended, is in
neither queue and is not executed, until it is resumed or deleted or the scheduler is reset.

A suspended task can still be the current one, if it was suspended while the scheduler was
stopped.  `delay` does not look at the state of the current task, so that it blocks such a task
(`not_staysSuspended`), which wakes up some ticks later.  `staysSuspended_careful` shows that there
is no other way out, apart from a new task that gets the id of an old one.
-/

namespace EFS

namespace Rtos

variable {Fn : Type}

/-- The operation ends the suspension of the task `T`. -/
def Call.Releases (T : TaskId) : Call Fn → Prop
  | .resumeTask id => id = T
  | .deleteTask id => id = T
  | .reset => True
  | _ => False

namespace Scheduler

/-- The task `T` is suspended. -/
def Suspended (s : Scheduler Fn) (T : TaskId) : Prop :=
  ∃ t, s.task? T = some t ∧ t.state = .suspended

/-- The operation delays the current task, although it is suspended. -/
def DelaysSuspended (s : Scheduler Fn) : Call Fn → Prop
  | .delay _ => s.running = true ∧ s.currentTaskId ≠ idleTaskId ∧
      (s.task? s.currentTaskId).map Task.state = some .suspended
  | _ => False

instance (s : Scheduler Fn) : DecidablePred s.DelaysSuspended
  | .delay _ => inferInstanceAs (Decidable (_ ∧ _ ∧ _))
  | .createTask _ _ _ _ | .deleteTask _ | .start | .stop | .schedule | .yield | .tick
  | .suspendTask _ | .resumeTask _ | .reset => isFalse id

variable {s : Scheduler Fn} {T : TaskId}

/-- Scheduling leaves a suspended task suspended, and does not execute it. -/
theorem Settled.perform_of_prepared (h : s.Settled) {o : Call Fn}
    (hp : (s.prepare o).Suspended T) :
    (s.perform o).state.Suspended T ∧ T ∉ (s.perform o).frame?.map Execution.task := by
  have hkeep : (s.perform o).state.Suspended T := by
    refine h.perform_of o (P := fun u => u.Suspended T) hp ?_
    rintro u hu ⟨t, ht, hst⟩
    exact ⟨t, hu.schedule_not_runnable ht (by simp [Task.Runnable, hst]) (by simp [hst]), hst⟩
  refine ⟨hkeep, ?_⟩
  intro hm
  obtain ⟨x, hx, rfl⟩ := Option.mem_map.1 hm
  obtain ⟨-, -, -, -, u, hu, hr, -⟩ := h.perform_entered hx
  obtain ⟨t, ht, hst⟩ := hkeep
  rw [hu, Option.some.injEq] at ht
  rw [ht, hst] at hr
  cases hr

theorem Settled.prepare_suspendTask (h : s.Settled) (hret : (s.suspendTask T).1 = true) :
    (s.prepare (.suspendTask T)).Suspended T := by
  cases ht : s.task? T with
  | none => simp [Scheduler.suspendTask, ht] at hret
  | some t =>
    refine ⟨t.setState .suspended, ?_, rfl⟩
    simp only [prepare, ht]
    rw [(h.toCoherent.parkTask ht).tasks, if_pos rfl]

/-- **Step lemma.**  An operation leaves a suspended task suspended unless it releases it, delays
it, or creates a task with its id. -/
theorem Settled.perform_suspended (h : s.Settled) (hT : s.Suspended T) {o : Call Fn}
    (ho : ¬ o.Releases T) (hfresh : s.FreshId o) (hdelay : ¬ s.DelaysSuspended o) :
    (s.perform o).state.Suspended T ∧ T ∉ (s.perform o).frame?.map Execution.task := by
  obtain ⟨t, ht, hst⟩ := hT
  by_cases hs : o = .suspendTask T
  · subst hs
    have hret : (s.suspendTask T).1 = true := by
      simp only [Scheduler.suspendTask, ht]
      split_ifs <;> rfl
    exact h.perform_of_prepared (h.prepare_suspendTask hret)
  · refine h.perform_of_prepared ⟨t, h.prepare_not_runnable ht (by simp [Task.Runnable, hst])
      hfresh ?_ ?_ (by simp [hst]), hst⟩
    · cases o with
      | suspendTask id => exact fun hid => hs (congrArg _ hid)
      | resumeTask id => exact ho
      | deleteTask id => exact ho
      | reset => exact ho
      | _ => exact id
    · rintro n rfl hr hidle rfl
      exact hdelay ⟨hr, hidle, by rw [ht, Option.map_some, hst]⟩

theorem Coherent.suspended_not_mem (h : s.Coherent) (hT : s.Suspended T) :
    T ∉ s.readyIds ∧ T ∉ s.delayQueue := by
  obtain ⟨t, ht, hst⟩ := hT
  refine ⟨?_, h.not_mem_delay ?_⟩
  · intro hm
    obtain ⟨u, hu, hr⟩ := h.mem_readyIds.1 hm
    obtain rfl : t = u := Option.some.inj (ht.symm.trans hu)
    simp [Task.Runnable, hst] at hr
  · intro u hu hb
    obtain rfl : t = u := Option.some.inj (ht.symm.trans hu)
    rw [hst] at hb
    cases hb

end Scheduler

/-- What `suspendTask` promises in the runs of `A`: from the call that returns `true`, until the
task is resumed or deleted or the scheduler is reset. -/
def StaysSuspended (A : LTS (Counted Fn × List (Execution Fn)) (Label Fn)) : Prop :=
  ∀ c d e T x ls, A.Reachable start c → (c.1.sched.suspendTask T).1 = true →
    A.step c (.call (.suspendTask T) x) d → A.Run d ls e →
    (∀ o y, .call o y ∈ ls → ¬ o.Releases T) →
    e.1.sched.Suspended T ∧ T ∉ e.1.sched.readyIds ∧ T ∉ e.1.sched.delayQueue ∧
      ¬ Executed T (.call (.suspendTask T) x :: ls)

/-- New tasks get unused ids, and the current task is not delayed while it is suspended. -/
def Careful (c : Counted Fn) (o : Call Fn) : Prop :=
  c.sched.FreshId o ∧ ¬ c.sched.DelaysSuspended o

instance (c : Counted Fn) : DecidablePred (Careful c) :=
  fun _ => inferInstanceAs (Decidable (_ ∧ _))

/-- The scheduler with arbitrary code around it that is careful. -/
def carefulMachine (Fn : Type) : LTS (Counted Fn × List (Execution Fn)) (Label Fn) :=
  (component Fn).lts Careful

/-- **Run lemma.**  A suspended task stays suspended in the runs of careful code. -/
theorem suspended_run {c d : Counted Fn × List (Execution Fn)} {T : TaskId} {ls : List (Label Fn)}
    (hc : c.1.sched.Settled) (hT : c.1.sched.Suspended T) (h : (carefulMachine Fn).Run c ls d)
    (hls : ∀ o x, .call o x ∈ ls → ¬ o.Releases T) :
    d.1.sched.Settled ∧ d.1.sched.Suspended T ∧ ¬ Executed T ls := by
  induction h with
  | nil => exact ⟨hc, hT, by rintro ⟨l, hl, -⟩; cases hl⟩
  | @cons c d e l ls hst hr ih =>
    have hrest := fun o x hm => hls o x (List.mem_cons_of_mem _ hm)
    obtain ⟨hd, hdT, hnot⟩ : d.1.sched.Settled ∧ d.1.sched.Suspended T ∧
        T ∉ l.entered.map Execution.task := by
      rcases component_step hst with ⟨o, rfl, ⟨hfresh, hdelay⟩, hd⟩ | ⟨-, he, hd⟩
      · rw [hd]
        have ho := hls o _ List.mem_cons_self
        exact ⟨hc.perform o hfresh, hc.perform_suspended hT ho hfresh hdelay⟩
      · rw [hd, he]
        exact ⟨hc, hT, by simp⟩
    obtain ⟨he, heT, hex⟩ := ih hd hdT hrest
    refine ⟨he, heT, ?_⟩
    rintro ⟨k, hk, hkT⟩
    rcases List.mem_cons.1 hk with rfl | hk
    · exact hnot hkT
    · exact hex ⟨k, hk, hkT⟩

/-- **Suspended tasks stay suspended**, whatever careful code does. -/
theorem staysSuspended_careful : StaysSuspended (carefulMachine Fn) := by
  intro c d e T x ls hreach hret hst hr hls
  have hc := settled_of_reachable (fun _ _ h => h.1) hreach
  rcases component_step hst with ⟨o, ho, ⟨hfresh, -⟩, hd⟩ | ⟨hl, -⟩
  · cases ho
    obtain ⟨hT, hnot⟩ := hc.perform_of_prepared (hc.prepare_suspendTask hret)
    obtain ⟨he, heT, hex⟩ := suspended_run (hd ▸ hc.perform _ hfresh) (hd ▸ hT) hr hls
    obtain ⟨h1, h2⟩ := he.suspended_not_mem heT
    refine ⟨heT, h1, h2, ?_⟩
    rintro ⟨k, hk, hkT⟩
    rcases List.mem_cons.1 hk with rfl | hk
    · exact hnot hkT
    · exact hex ⟨k, hk, hkT⟩
  · exact absurd rfl (hl _ _)

/-- A task is current when the scheduler is stopped. -/
def stoppedCalls : List (Call Unit) :=
  [.createTask "a" (some ()) 1 1024, .start, .schedule, .stop]

/-- If it is suspended then, and the scheduler is started again, `delay` blocks it. -/
theorem not_staysSuspended : ¬ StaysSuspended (machine Unit) := by
  intro h
  set c := (component Unit).after start stoppedCalls with hc
  have hreach : (machine Unit).Reachable start c := Reentrant.reachable_after (by decide)
  have hst := Reentrant.lts_call (R := component Unit) (G := WithinLimit) (s := c.1) (k := c.2)
    (o := .suspendTask 1) (by decide)
  have hr := Reentrant.run_after (R := component Unit) (G := WithinLimit)
    (c := (component Unit).after c [.suspendTask 1]) [.start, .delay 5] (by decide)
  have hls : ∀ o y, .call o y ∈ (component Unit).labels
      ((component Unit).after c [.suspendTask 1]) [.start, .delay 5] → ¬ o.Releases 1 := by
    intro o y hm
    rcases List.mem_pair.1 (Reentrant.mem_of_mem_labels hm) with rfl | rfl <;> exact id
  obtain ⟨⟨t, ht, hsus⟩, -⟩ := h _ _ _ 1 _ _ hreach (by decide) hst hr hls
  have hblocked : (((component Unit).after ((component Unit).after c [.suspendTask 1])
      [.start, .delay 5]).1.sched.task? 1).map Task.state = some .blocked := by decide
  rw [ht, Option.map_some, hsus] at hblocked
  cases hblocked

end Rtos

end EFS
