import EFS.Rtos.Machine

/-!
# How long a delay lasts

`DelayLaw c n` is what `delay(n)` promises the task that calls it in the configuration `c`: in
every run that does not suspend, resume, delete or reset it, the task is blocked and not executed
until `tick()` has been called `n` times, and not blocked any more by then.

The deadline is the 64-bit sum of the tick count and `n`, so the promise is kept exactly when
that sum does not overflow (`delayLaw_iff`); otherwise the task is ready again at once.
-/

namespace EFS

namespace Rtos

variable {Fn : Type}

/-- Labels of the steps of `machine`. -/
abbrev Label (Fn : Type) := Reentrant.Label (Call Fn) (Execution Fn)

/-- The label is a call of `tick()`. -/
def Label.isTick : Label Fn → Bool
  | .call .tick _ => true
  | _ => false

/-- How often `tick()` is called. -/
def ticks (ls : List (Label Fn)) : ℕ := ls.countP Label.isTick

@[simp] theorem ticks_nil : ticks ([] : List (Label Fn)) = 0 := rfl

@[simp] theorem ticks_append (ls ms : List (Label Fn)) :
    ticks (ls ++ ms) = ticks ls + ticks ms := List.countP_append

theorem ticks_cons (l : Label Fn) (ls : List (Label Fn)) : ticks (l :: ls) = ticks ls + ticks [l] :=
  (ticks_append [l] ls).trans (Nat.add_comm _ _)

theorem ticks_singleton (l : Label Fn) : ticks [l] = if l.isTick then 1 else 0 :=
  List.countP_singleton ..

/-- The function of task `T` is executed in one of the steps. -/
def Executed (T : TaskId) (ls : List (Label Fn)) : Prop :=
  ∃ l ∈ ls, T ∈ l.entered.map Execution.task

/-- The task `T` is not suspended, resumed, deleted or reset in any of the steps. -/
def Undisturbed (T : TaskId) (ls : List (Label Fn)) : Prop :=
  ∀ o e, .call o e ∈ ls → ¬ o.Disturbs T

/-- The task `T` is blocked. -/
def Scheduler.Blocked (s : Scheduler Fn) (T : TaskId) : Prop :=
  ∃ t, s.task? T = some t ∧ t.state = .blocked

/-- What `delay(n)`, called by the current task in the configuration `c`, promises. -/
def DelayLaw (c : Counted Fn × List (Execution Fn)) (n : UInt64) : Prop :=
  ∀ e d₀ ls d, (freshMachine Fn).step c (.call (.delay n) e) d₀ → (freshMachine Fn).Run d₀ ls d →
    Undisturbed c.1.sched.currentTaskId ls →
    (ticks ls < n.toNat → d.1.sched.Blocked c.1.sched.currentTaskId ∧
      ¬ Executed c.1.sched.currentTaskId (.call (.delay n) e :: ls)) ∧
    (n.toNat ≤ ticks ls → ∃ ks ms d', ls = ks ++ ms ∧ (freshMachine Fn).Run d₀ ks d' ∧
      (freshMachine Fn).Run d' ms d ∧ ticks ks ≤ n.toNat ∧
      ¬ d'.1.sched.Blocked c.1.sched.currentTaskId)

theorem Undisturbed.of_append {T : TaskId} {ls ms : List (Label Fn)}
    (h : Undisturbed T (ls ++ ms)) : Undisturbed T ls :=
  fun o e hm => h o e (List.mem_append_left _ hm)

theorem Executed.of_append {T : TaskId} {ls : List (Label Fn)} {l : Label Fn}
    (h : Executed T (ls ++ [l])) : Executed T ls ∨ T ∈ l.entered.map Execution.task := by
  obtain ⟨k, hk, hT⟩ := h
  rcases List.mem_append.1 hk with hk | hk
  · exact .inl ⟨k, hk, hT⟩
  · exact .inr (List.mem_singleton.1 hk ▸ hT)

/-- The task `T` waits for the tick `deadline`, which comes after `left` more ticks. -/
structure Waiting (s : Scheduler Fn) (T : TaskId) (deadline : UInt64) (left : ℕ) : Prop where
  blocked : ∃ t, s.task? T = some t ∧ t.state = .blocked ∧ t.delayUntilTick = deadline
  left_pos : 0 < left
  tick_add : s.tickCount.toNat + left = deadline.toNat

/-- **Step lemma.**  A step that leaves the task alone brings its deadline nearer by the tick it
makes, if it makes one, and the task is ready when it has come. -/
theorem Waiting.step {c d : Counted Fn × List (Execution Fn)} {l : Label Fn} {T : TaskId}
    {deadline : UInt64} {left : ℕ} (h : Waiting c.1.sched T deadline left) (hI : c.1.sched.Settled)
    (hst : (freshMachine Fn).step c l d) (hl : Undisturbed T [l]) :
    if ticks [l] < left then Waiting d.1.sched T deadline (left - ticks [l]) ∧
      T ∉ l.entered.map Execution.task
    else ¬ d.1.sched.Blocked T := by
  obtain ⟨⟨t, ht, hb, hdl⟩, hpos, htick⟩ := h
  rcases component_step hst with ⟨o, rfl, hfresh, hd⟩ | ⟨hl', he, hd⟩
  · have ho : ¬ o.Disturbs T := hl o _ (List.mem_singleton_self _)
    obtain ⟨-, hcount, -⟩ := hI.perform_counters o
    rw [hd, ticks_singleton]
    have hdeadline := deadline.toNat_lt
    -- the tick count after the step, which does not wrap around
    have hcount' : (c.1.sched.perform o).state.tickCount.toNat = c.1.sched.tickCount.toNat +
        if Label.isTick (.call o (c.1.sched.perform o).frame?) then 1 else 0 := by
      rw [hcount]
      cases o with
      | tick => simp only [Label.isTick, ↓reduceIte, UInt64.toNat_add, UInt64.reduceToNat]; omega
      | reset => exact absurd trivial ho
      | _ => rfl
    by_cases hlt : (if Label.isTick (.call o (c.1.sched.perform o).frame?) then 1 else 0) < left
    · rw [if_pos hlt]
      obtain ⟨hkeep, hnot⟩ := hI.perform_waiting ht hb hfresh ho
        (UInt64.lt_iff_toNat_lt.2 (by rw [hdl]; omega))
      refine ⟨⟨⟨t, hkeep, hb, hdl⟩, by omega, ?_⟩, hnot⟩
      change (c.1.sched.perform o).state.tickCount.toNat + _ = _
      omega
    · rw [if_neg hlt]
      cases o with
      | tick =>
        have hle : t.delayUntilTick ≤ c.1.sched.tickCount + 1 := by
          rw [UInt64.le_iff_toNat_le, hdl]
          have : (c.1.sched.tickCount + 1).toNat = _ := hcount ▸ hcount'
          omega
        rintro ⟨u, hu, hub⟩
        have hwake := hI.tick_wakes ht hb hle
        rw [show (c.1.sched.perform .tick).state = c.1.sched.tick from rfl, hwake,
          Option.some.injEq] at hu
        rw [← hu] at hub
        cases hub
      | _ => exact absurd hpos (by simpa [Label.isTick] using hlt)
  · have hzero : ticks [l] = 0 := by
      rw [ticks_singleton]
      cases l with
      | call o e => exact absurd rfl (hl' o e)
      | _ => rfl
    rw [hzero, if_pos hpos, hd, he]
    exact ⟨⟨⟨t, ht, hb, hdl⟩, hpos, htick⟩, by simp⟩

/-- **Run lemma.**  A task goes on waiting, without being executed, until its deadline, and does
not wait any more when it has come. -/
theorem Waiting.run {d₀ d : Counted Fn × List (Execution Fn)} {ls : List (Label Fn)} {T : TaskId}
    {deadline : UInt64} {left : ℕ} (h : Waiting d₀.1.sched T deadline left)
    (hI : d₀.1.sched.Settled) (hr : (freshMachine Fn).Run d₀ ls d) (hls : Undisturbed T ls) :
    if ticks ls < left then Waiting d.1.sched T deadline (left - ticks ls) ∧ ¬ Executed T ls
    else ∃ ks ms d', ls = ks ++ ms ∧ (freshMachine Fn).Run d₀ ks d' ∧
      (freshMachine Fn).Run d' ms d ∧ ticks ks ≤ left ∧ ¬ d'.1.sched.Blocked T := by
  -- along the run; the invariant also keeps what the step lemma needs
  refine (hr.history (I := fun ls d => d.1.sched.Settled ∧ (freshMachine Fn).Run d₀ ls d ∧
    (Undisturbed T ls → if ticks ls < left then
        Waiting d.1.sched T deadline (left - ticks ls) ∧ ¬ Executed T ls
      else ∃ ks ms d', ls = ks ++ ms ∧ (freshMachine Fn).Run d₀ ks d' ∧
        (freshMachine Fn).Run d' ms d ∧ ticks ks ≤ left ∧ ¬ d'.1.sched.Blocked T)) ?_ ?_).2.2 hls
  · refine ⟨hI, .nil _, ?_⟩
    intro _
    rw [ticks_nil, if_pos h.left_pos]
    exact ⟨h, by rintro ⟨_, hl, -⟩; cases hl⟩
  · rintro ks c l e ⟨hIc, hrun, ih⟩ hst
    refine ⟨settled_step hIc hst, hrun.snoc hst, ?_⟩
    intro hun
    have ih := ih hun.of_append
    have hl : Undisturbed T [l] := fun o e hm => hun o e (List.mem_append_right _ hm)
    have hle : ticks [l] ≤ 1 := by rw [ticks_singleton]; split_ifs <;> simp
    rw [ticks_append]
    by_cases hlt : ticks ks < left
    · rw [if_pos hlt] at ih
      have hnext := ih.1.step hIc hst hl
      by_cases hlt' : ticks ks + ticks [l] < left
      · rw [if_pos (by omega)] at hnext
        rw [if_pos hlt']
        refine ⟨Nat.sub_sub left _ _ ▸ hnext.1, ?_⟩
        intro hex
        exact hex.of_append.elim ih.2 hnext.2
      · rw [if_neg (by omega)] at hnext
        rw [if_neg hlt']
        exact ⟨ks ++ [l], [], e, by simp, hrun.snoc hst, .nil _, by simp; omega, hnext⟩
    · rw [if_neg hlt] at ih
      rw [if_neg (by omega)]
      -- the delay was over before, and stays so
      obtain ⟨ps, ms, d', rfl, h1, h2, h3, h4⟩ := ih
      exact ⟨ps, ms ++ [l], d', by simp, h1, h2.snoc hst, h3, h4⟩

section

variable {c : Counted Fn × List (Execution Fn)} {n : UInt64}

theorem toNat_add_eq {a b : UInt64} (h : a.toNat + b.toNat < 2 ^ 64) :
    (a + b).toNat = a.toNat + b.toNat := by
  rw [UInt64.toNat_add]; exact Nat.mod_eq_of_lt h

theorem Scheduler.Settled.delayLaw (hI : c.1.sched.Settled) (hs : c.1.sched.running = true)
    (hidle : c.1.sched.currentTaskId ≠ idleTaskId)
    (hlt : c.1.sched.tickCount.toNat + n.toNat < 2 ^ 64) : DelayLaw c n := by
  intro e d₀ ls d hst hr hls
  have hI₀ := settled_step hI hst
  obtain ⟨o, ho, -, hd₀⟩ | ⟨hno, -⟩ := component_step hst
  swap
  · exact absurd rfl (hno _ _)
  obtain ⟨rfl, rfl⟩ := (Reentrant.Label.call.injEq ..).mp ho
  obtain ⟨u, hu, hdl, hblock, hrun⟩ := hI.delay_current hs hidle n
  have hu₀ : d₀.1.sched.task? c.1.sched.currentTaskId = some u := by rw [hd₀]; exact hu
  have htick : d₀.1.sched.tickCount = c.1.sched.tickCount := by
    rw [hd₀]; exact (hI.perform_counters (.delay n)).2.1
  -- a delay of no ticks is over at once, and any other one blocks the task
  by_cases hpos : 0 < n.toNat
  · obtain ⟨hb, hnot⟩ := hblock (UInt64.lt_iff_toNat_lt.2 (by rw [toNat_add_eq hlt]; omega))
    have hw : Waiting d₀.1.sched c.1.sched.currentTaskId (c.1.sched.tickCount + n) n.toNat :=
      ⟨⟨u, hu₀, hb, hdl⟩, hpos, by rw [htick, toNat_add_eq hlt]⟩
    have := hw.run hI₀ hr hls
    refine ⟨?_, ?_⟩
    · intro hk
      rw [if_pos hk] at this
      obtain ⟨t, ht, hb, -⟩ := this.1.blocked
      refine ⟨⟨t, ht, hb⟩, ?_⟩
      rintro ⟨l, hl, hT⟩
      rcases List.mem_cons.1 hl with rfl | hl
      · exact hnot hT
      · exact this.2 ⟨l, hl, hT⟩
    · intro hk
      rwa [if_neg (by omega)] at this
  · refine ⟨fun hk => absurd hk (by omega), fun _ => ⟨[], ls, d₀, rfl, .nil _, hr, by simp, ?_⟩⟩
    rintro ⟨t, ht, hb⟩
    obtain rfl : u = t := Option.some.inj (hu₀.symm.trans ht)
    have := hrun fun h => by
      have := UInt64.lt_iff_toNat_lt.1 h
      rw [toNat_add_eq hlt] at this
      omega
    rcases this with h | h <;> rw [hb] at h <;> cases h

/-- With a deadline that overflows, the task is ready again when `delay` returns. -/
theorem Scheduler.Settled.not_delayLaw (hI : c.1.sched.Settled) (hs : c.1.sched.running = true)
    (hidle : c.1.sched.currentTaskId ≠ idleTaskId)
    (hge : 2 ^ 64 ≤ c.1.sched.tickCount.toNat + n.toNat) : ¬ DelayLaw c n := by
  intro hlaw
  obtain ⟨u, hu, -, -, hrun⟩ := hI.delay_current hs hidle n
  have hlt := c.1.sched.tickCount.toNat_lt
  have hn := n.toNat_lt
  have hru := hrun fun h => by
    have := UInt64.lt_iff_toNat_lt.1 h
    rw [UInt64.toNat_add] at this
    omega
  obtain ⟨s, fs⟩ := c
  have hstep : (freshMachine Fn).step (s, fs) (.call (.delay n) _) _ :=
    Reentrant.lts_call (R := component Fn) (o := .delay n) trivial
  obtain ⟨⟨t, ht, hb⟩, -⟩ := (hlaw _ _ [] _ hstep (.nil _) (by intro o e hm; cases hm)).1
    (by rw [ticks_nil]; omega)
  simp only [component, Outcome.state_map] at ht
  obtain rfl : u = t := Option.some.inj (hu.symm.trans ht)
  rcases hru with h | h <;> rw [hb] at h <;> cases h

/-- **Delay duration.**  `delay(n)` lasts `n` ticks exactly when the deadline, the tick count
plus `n`, is less than `2 ^ 64`. -/
theorem delayLaw_iff (h : (freshMachine Fn).Reachable start c) (hs : c.1.sched.running = true)
    (hidle : c.1.sched.currentTaskId ≠ idleTaskId) :
    DelayLaw c n ↔ c.1.sched.tickCount.toNat + n.toNat < 2 ^ 64 := by
  have hI := settled_of_fresh h
  refine ⟨?_, hI.delayLaw hs hidle⟩
  intro hlaw
  by_contra hge
  exact hI.not_delayLaw hs hidle (not_lt.1 hge) hlaw

/-- A task is running, and one tick has passed. -/
def tickedCalls : List (Call Unit) :=
  [.createTask "a" (some ()) 1 1024, .start, .schedule, .tick]

theorem delayLaw_ticked : DelayLaw ((component Unit).after start tickedCalls) 5 :=
  (delayLaw_iff (Reentrant.reachable_after (by decide)) (by decide) (by decide)).2 (by decide)

/-- From tick 1 on, a delay of `2 ^ 64 - 1` ticks is over at once. -/
theorem not_delayLaw_ticked :
    (freshMachine Unit).Reachable start ((component Unit).after start tickedCalls) ∧
      ((component Unit).after start tickedCalls).1.sched.running = true ∧
      ((component Unit).after start tickedCalls).1.sched.currentTaskId ≠ idleTaskId ∧
      ¬ DelayLaw ((component Unit).after start tickedCalls) 0xFFFFFFFFFFFFFFFF := by
  have hr : (freshMachine Unit).Reachable start ((component Unit).after start tickedCalls) :=
    Reentrant.reachable_after (by decide)
  exact ⟨hr, by decide, by decide,
    (settled_of_fresh hr).not_delayLaw (by decide) (by decide) (by decide)⟩

end

end Rtos

end EFS
