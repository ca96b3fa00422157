import EFS.Drivers.Timer

/-!
# The auto-reset bit

`setAutoReset` only writes its bit of the control register, and a compare match does not read it:
the timer stops at its first match whether the bit is set or not.  So an auto-reset timer is
periodic only before that match (`periodic_iff`).
-/

namespace EFS

namespace Drivers

namespace Timer

open EFS.System

variable {Cb : Type} (self : Cb) (clock : ℕ → SimulationClock) (t : Timer)
  (sched : EventScheduler Cb) (c : UInt32)

/-- `setAutoReset(true)`, `setCompare(c)` and `start()` at the clock `clock 0`. -/
def autoStart : Timer × EventScheduler Cb :=
  let set := (t.setAutoReset true).setCompare self (clock 0) sched c
  set.1.start self (clock 0) set.2

/-- The timer and the scheduler after `n` more calls of `tick()`, and how often the line was
triggered.  The clock is at `clock n` in the `n`-th of these calls. -/
def autoTicks : ℕ → (Timer × EventScheduler Cb) × ℕ
  | 0 => (t.autoStart self clock sched c, 0)
  | n + 1 =>
    let before := autoTicks n
    let ticked := before.1.1.tick (clock (n + 1)) before.1.2
    ((ticked.1, ticked.2.1), before.2 + if ticked.2.2.isSome then 1 else 0)

/-- The timer runs on, counts modulo `c`, and has triggered its line once a period. -/
def Periodic (c : UInt32) (k : ℕ) (s : (Timer × EventScheduler Cb) × ℕ) : Prop :=
  s.1.1.running = true ∧ s.1.1.counter.toNat = k % c.toNat ∧ s.2 = k / c.toNat

/-- The clock advances by one cycle at most from one tick to the next. -/
def SingleCycle : Prop := ∀ n, clock (n + 1) = clock n ∨ clock (n + 1) = (clock n).tick 1

/-- A timer without a scheduler that has counted `k` ticks. -/
structure Counted (clock : SimulationClock) (c : UInt32) (k : ℕ) (t : Timer) : Prop where
  scheduler : t.scheduler = false
  running : t.running = true
  compare : t.compare = c
  counter : t.counter = .ofNat k
  inStep : t.clock = true → t.lastClockCycles = clock.cycles

variable {self clock t sched c} {k : ℕ}

theorem stepAmount_of_next {now next : SimulationClock}
    (hstep : t.clock = true → t.lastClockCycles = now.cycles)
    (hnext : next = now ∨ next = now.tick 1) : t.stepAmount next = 1 := by
  rw [stepAmount]
  split_ifs with h
  · rw [hstep h.1] at h ⊢
    rcases hnext with rfl | rfl
    · exact absurd h.2 (UInt64.lt_irrefl _)
    · have hdiff : (now.tick 1).cycles - now.cycles = 1 := by
        rw [SimulationClock.tick, UInt64.add_comm, UInt64.add_sub_cancel]
      rw [hdiff]
      rfl
  · rfl

/-- The timer counts from 0 when it is started. -/
theorem counted_autoStart (hsched : t.scheduler = false) (hcounter : t.counter = 0) :
    Counted (clock 0) c 0 (t.autoStart self clock sched c).1 := by
  let u : Timer := { t.setAutoReset true with compareRegister := t.compareRegister.write c }
  have hset : (t.setAutoReset true).setCompare self (clock 0) sched c = (u, sched) :=
    updateScheduledEvent_of_detached (t := u) hsched
  have hsync : (u.enabled.syncClock (clock 0)).scheduler = false := by
    rw [syncClock]
    split_ifs
    · exact hsched
    · exact hsched
  rw [autoStart, hset, start, updateScheduledEvent_of_detached hsync, syncClock]
  split_ifs with hclock
  · exact ⟨hsched, running_enabled, rfl, hcounter, fun _ => rfl⟩
  · exact ⟨hsched, running_enabled, rfl, hcounter, fun h => absurd h hclock⟩

/-- One tick. -/
theorem Counted.tick {now next : SimulationClock} (h : Counted now c k t)
    (hnext : next = now ∨ next = now.tick 1) (hk : k < c.toNat) :
    let ticked := t.tick next sched
    (k + 1 < c.toNat → Counted next c (k + 1) ticked.1 ∧ ticked.2.2 = none) ∧
      (k + 1 = c.toNat → ticked.1.running = false) := by
  have hc := c.toNat_lt
  have hcount : t.counter + t.stepAmount next = .ofNat (k + 1) := by
    rw [stepAmount_of_next h.inStep hnext, h.counter, UInt32.ofNat_add]
    rfl
  -- the comparison is that of the numbers, as neither side wraps
  have hle : t.compare ≤ t.counter + t.stepAmount next ↔ c.toNat ≤ k + 1 := by
    rw [hcount, h.compare, UInt32.le_iff_toNat_le, UInt32.toNat_ofNat']
    omega
  let u := t.counted next (t.counter + t.stepAmount next)
  have hu : Counted next c (k + 1) u := by
    simp only [u, counted, syncClock]
    split_ifs with hclock
    · exact ⟨h.scheduler, h.running, h.compare, hcount, fun _ => rfl⟩
    · exact ⟨h.scheduler, h.running, h.compare, hcount, fun hc => absurd hc hclock⟩
  intro ticked
  have hticked : ticked = if ¬ t.scheduler ∧ t.compare ≤ t.counter + t.stepAmount next then
      u.handleCompareMatch sched else (u, sched, none) := if_neg (not_not.2 h.running)
  constructor
  · intro hlt
    rw [hticked, if_neg fun hmatch => absurd (hle.1 hmatch.2) (by omega)]
    exact ⟨hu, rfl⟩
  · intro heq
    have hmatch : ¬ t.scheduler ∧ t.compare ≤ t.counter + t.stepAmount next :=
      ⟨by simp [h.scheduler], hle.2 heq.ge⟩
    rw [hticked, if_pos hmatch, handleCompareMatch_of_detached hu.scheduler hu.running]
    exact running_disabled

theorem running_tick {now : SimulationClock} (h : t.running = false) :
    (t.tick now sched).1.running = false := by
  rw [tick, if_pos (by simp [h]), syncClock]
  split_ifs
  · exact h
  · exact h

variable (self sched) in
/-- Up to the first match the timer counts its ticks. -/
theorem counted_autoTicks (hsched : t.scheduler = false) (hcounter : t.counter = 0)
    (hclock : SingleCycle clock) (hk : k < c.toNat) :
    Counted (clock k) c k (autoTicks self clock t sched c k).1.1 ∧
      (autoTicks self clock t sched c k).2 = 0 := by
  induction k with
  | zero => exact ⟨counted_autoStart hsched hcounter, rfl⟩
  | succ k ih =>
    obtain ⟨hcounted, hnone⟩ := ih (by omega)
    obtain ⟨hnext, htriggered⟩ := (hcounted.tick (hclock k) (by omega)).1 hk
    refine ⟨hnext, ?_⟩
    simp only [autoTicks, htriggered, hnone, Option.isSome_none]
    rfl

variable (self sched) in
/-- From the first match on the timer is stopped. -/
theorem stopped_autoTicks (hsched : t.scheduler = false) (hcounter : t.counter = 0) (hc : c ≠ 0)
    (hclock : SingleCycle clock) (hk : c.toNat ≤ k) :
    (autoTicks self clock t sched c k).1.1.running = false := by
  have hpos : 0 < c.toNat := by
    have hne : c.toNat ≠ 0 := fun h => hc (UInt32.toNat.inj h)
    omega
  induction k, hk using Nat.le_induction with
  | base =>
    obtain ⟨k, hk⟩ := Nat.exists_eq_succ_of_ne_zero hpos.ne'
    have hcounted := (counted_autoTicks self sched hsched hcounter hclock
      (show k < c.toNat by omega)).1
    rw [hk]
    exact (hcounted.tick (hclock k) (by omega)).2 hk.symm
  | succ k _ ih => exact running_tick ih

/-- A timer with the auto-reset bit is periodic exactly before its first match. -/
theorem periodic_iff (self : Cb) (t : Timer) (sched : EventScheduler Cb)
    (hsched : t.scheduler = false) (hcounter : t.counter = 0) (hc : c ≠ 0)
    (hclock : SingleCycle clock) (k : ℕ) :
    Periodic c k (autoTicks self clock t sched c k) ↔ k < c.toNat := by
  constructor
  · rintro ⟨hrun, -, -⟩
    by_contra hk
    have hstopped := stopped_autoTicks self sched hsched hcounter hc hclock (not_lt.1 hk)
    exact Bool.false_ne_true (hstopped.symm.trans hrun)
  · intro hk
    obtain ⟨hcounted, hnone⟩ := counted_autoTicks self sched hsched hcounter hclock hk
    have hc := c.toNat_lt
    refine ⟨hcounted.running, ?_, hnone.trans (Nat.div_eq_of_lt hk).symm⟩
    rw [hcounted.counter, UInt32.toNat_ofNat', Nat.mod_eq_of_lt hk]
    omega

/-- A new timer with a line that is ticked by hand. -/
theorem periodic_manual :
    Periodic 3 2 (autoTicks () (fun _ => ⟨0⟩) (new.attachInterruptController 5) .init 3 2) := by
  have hclock : SingleCycle fun _ => ⟨0⟩ := fun _ => .inl rfl
  exact (periodic_iff () (new.attachInterruptController 5) .init rfl rfl (by decide) hclock 2).2
    (by decide)

/-- It stops at its first match. -/
theorem not_periodic_manual :
    ¬ Periodic 1 1 (autoTicks () (fun _ => ⟨0⟩) (new.attachInterruptController 5) .init 1 1) := by
  rintro ⟨hrun, -, -⟩
  exact absurd hrun (by decide)

end Timer

end Drivers

end EFS
