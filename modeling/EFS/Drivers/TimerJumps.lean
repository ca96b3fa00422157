import EFS.Drivers.Timer

/-!
# Timers and jumps of the clock

A timer with a clock and without an event scheduler counts, in each `tick()`, the cycles since the
one before.  They are a difference of 64-bit cycle counts, of which the counter takes the lower 32
bits; nothing is counted of a jump by `2 ^ 32` cycles, and the sum may wrap past the compare value.

* `inTime_iff` : after any jumps the timer is where it should be iff the counter has reached the
  compare value at the end of one of them, or the jumps are too short for it and are all counted.
* `not_inTime_jump` : a jump by `2 ^ 32` cycles is missed.
-/

namespace EFS

namespace Drivers

open EFS.System

namespace Timer

variable {Cb : Type}

/-- The clock advances by each of the amounts, and the timer ticks after each. -/
def jumps (sched : EventScheduler Cb) : Timer → SimulationClock → List UInt64 → Timer
  | t, _, [] => t
  | t, clock, d :: ds => jumps sched (t.tick (clock.tick d) sched).1 (clock.tick d) ds

/-- The cycles of a list of advances, without wrapping. -/
def total (ds : List UInt64) : ℕ := (ds.map UInt64.toNat).sum

/-- A timer that was started at `k` is where it should be after so many cycles: at the compare value
`c`, with a match, or still on its way. -/
structure InTime (c k : UInt32) (cycles : ℕ) (t : Timer) : Prop where
  hasMatch_iff : t.hasMatch = true ↔ c.toNat - k.toNat ≤ cycles
  reached : c.toNat - k.toNat ≤ cycles → t.counter = c ∧ t.running = false
  waiting : cycles < c.toNat - k.toNat →
    t.counter.toNat = k.toNat + cycles ∧ t.running = true

/-! ### What is counted -/

/-- What is counted of a jump: its lower 32 bits, or one cycle if the clock wraps in it. -/
def countedOf (cycles d : UInt64) : UInt32 :=
  if cycles.toNat + d.toNat < 2 ^ 64 then d.toUInt32 else 1

/-- The counter after the jumps, if nothing stops it. -/
def position : UInt32 → UInt64 → List UInt64 → UInt32
  | k, _, [] => k
  | k, cycles, d :: ds => position (k + countedOf cycles d) (cycles + d) ds

/-- The clock wraps in none of the jumps, or in one of a single cycle. -/
def AllCounted : UInt64 → List UInt64 → Prop
  | _, [] => True
  | cycles, d :: ds => (cycles.toNat + d.toNat < 2 ^ 64 ∨ d = 1) ∧ AllCounted (cycles + d) ds

variable {c k : UInt32} {cycles d : UInt64} {ds : List UInt64}

variable (cycles) in
theorem toNat_countedOf (hd : d.toNat < 2 ^ 32) (hpos : 0 < d) :
    (countedOf cycles d).toNat ≤ d.toNat ∧
      ((countedOf cycles d).toNat = d.toNat ↔ cycles.toNat + d.toNat < 2 ^ 64 ∨ d = 1) := by
  have hpos : 0 < d.toNat := UInt64.lt_iff_toNat_lt.1 hpos
  have hone : d = 1 ↔ d.toNat = 1 := UInt64.toNat_inj.symm
  unfold countedOf
  split_ifs with hwrap
  · rw [UInt64.toNat_toUInt32, Nat.mod_eq_of_lt hd]
    exact ⟨le_rfl, iff_of_true rfl (.inl hwrap)⟩
  · rw [hone, or_iff_right hwrap]
    exact ⟨hpos, eq_comm⟩

variable (cycles) in
/-- Jumps that are too short to reach the compare value. -/
theorem position_of_lt (hpos : ∀ d ∈ ds, 0 < d) (hlt : k.toNat + total ds < c.toNat) :
    (∀ pre, pre <+: ds → ¬ c ≤ position k cycles pre) ∧
      (position k cycles ds).toNat ≤ k.toNat + total ds ∧
      ((position k cycles ds).toNat = k.toNat + total ds ↔ AllCounted cycles ds) := by
  induction ds generalizing k cycles with
  | nil =>
    refine ⟨?_, le_rfl, iff_of_true rfl trivial⟩
    intro pre hpre
    rw [List.prefix_nil.1 hpre, UInt32.not_le]
    exact UInt32.lt_iff_toNat_lt.2 hlt
  | cons d ds ih =>
    have hc := c.toNat_lt
    have htotal : total (d :: ds) = d.toNat + total ds := rfl
    -- the counter does not wrap, since all jumps together are too short for it
    obtain ⟨hle, heq⟩ := toNat_countedOf cycles (by omega)
      (hpos d List.mem_cons_self)
    have hk : (k + countedOf cycles d).toNat = k.toNat + (countedOf cycles d).toNat := by
      rw [UInt32.toNat_add, Nat.mod_eq_of_lt (by omega)]
    obtain ⟨hbelow, hle', heq'⟩ := ih (k := k + countedOf cycles d) (cycles + d)
      (fun d hd => hpos d (List.mem_cons_of_mem _ hd)) (by omega)
    refine ⟨?_, ?_, ?_⟩
    · intro pre hpre
      rcases List.prefix_cons_iff.1 hpre with rfl | ⟨rest, rfl, hrest⟩
      · rw [UInt32.not_le]
        exact UInt32.lt_iff_toNat_lt.2 (by simp only [position]; omega)
      · exact hbelow rest hrest
    · rw [position]
      omega
    · rw [position, AllCounted, ← heq, ← heq']
      omega

/-! ### One jump -/

/-- A started timer at `k`, which has seen the current cycle. -/
structure Underway (clock : SimulationClock) (c k : UInt32) (t : Timer) : Prop where
  attached : t.clock = true
  detached : t.scheduler = false
  running : t.running = true
  unmatched : t.hasMatch = false
  compare : t.compare = c
  counter : t.counter = k
  inStep : t.lastClockCycles = clock.cycles

/-- A timer that a match has stopped at `c`. -/
structure AtMatch (c : UInt32) (t : Timer) : Prop where
  running : t.running = false
  matched : t.hasMatch = true
  counter : t.counter = c

variable {clock : SimulationClock} {sched : EventScheduler Cb} {t : Timer}

theorem stepAmount_jump (hclock : t.clock = true) (h : t.lastClockCycles = clock.cycles)
    (hpos : 0 < d) : t.stepAmount (clock.tick d) = countedOf clock.cycles d := by
  have hd := d.toNat_lt
  have hpos := UInt64.lt_iff_toNat_lt.1 hpos
  have hnow := clock.cycles.toNat_lt
  have hcycles : (clock.tick d).cycles = clock.cycles + d := rfl
  have hlt : clock.cycles < clock.cycles + d ↔ clock.cycles.toNat + d.toNat < 2 ^ 64 := by
    rw [UInt64.lt_iff_toNat_lt, UInt64.toNat_add]
    change 0 < d.toNat at hpos
    omega
  have hdiff : clock.cycles + d - clock.cycles = d := by
    rw [UInt64.add_comm, UInt64.add_sub_cancel]
  simp only [stepAmount, countedOf, h, hcycles, hlt, hdiff, hclock, true_and]

variable (sched) in
theorem Underway.tick (h : t.Underway clock c k) (hpos : 0 < d) :
    (¬ c ≤ k + countedOf clock.cycles d →
      (t.tick (clock.tick d) sched).1.Underway (clock.tick d) c (k + countedOf clock.cycles d)) ∧
    (c ≤ k + countedOf clock.cycles d → (t.tick (clock.tick d) sched).1.AtMatch c) := by
  have hstep : t.counter + t.stepAmount (clock.tick d) = k + countedOf clock.cycles d := by
    rw [h.counter, stepAmount_jump h.attached h.inStep hpos]
  let u := t.counted (clock.tick d) (k + countedOf clock.cycles d)
  have hu : u.Underway (clock.tick d) c (k + countedOf clock.cycles d) := by
    simp only [u, counted, syncClock, h.attached, if_true]
    exact ⟨rfl, h.detached, h.running, h.unmatched, h.compare, rfl, rfl⟩
  rw [Timer.tick, if_neg (not_not.2 h.running), hstep, h.compare]
  constructor
  · intro hle
    rw [if_neg fun hmatch => hle hmatch.2]
    exact hu
  · intro hle
    rw [if_pos ⟨by simp [h.detached], hle⟩, handleCompareMatch_of_detached hu.detached hu.running]
    exact ⟨running_disabled, by simp [hasMatch, disabled, matched, statusMatchBit], hu.compare⟩

theorem AtMatch.tick (h : t.AtMatch c) : (t.tick clock sched).1.AtMatch c := by
  rw [Timer.tick, if_pos (by simp [h.running]), syncClock]
  split_ifs
  · exact ⟨h.running, h.matched, h.counter⟩
  · exact h

/-! ### All jumps -/

theorem AtMatch.jumps (h : t.AtMatch c) : (t.jumps sched clock ds).AtMatch c := by
  induction ds generalizing t clock with
  | nil => exact h
  | cons d ds ih => exact ih h.tick

variable (sched) in
/-- A timer matches at the end of the first jump that brings it to the compare value. -/
theorem Underway.jumps (h : t.Underway clock c k) (hk : k < c) (hpos : ∀ d ∈ ds, 0 < d) :
    ((∃ pre, pre <+: ds ∧ c ≤ position k clock.cycles pre) →
      (t.jumps sched clock ds).AtMatch c) ∧
    ((∀ pre, pre <+: ds → ¬ c ≤ position k clock.cycles pre) → ∃ clock',
      (t.jumps sched clock ds).Underway clock' c (position k clock.cycles ds)) := by
  induction ds generalizing t clock k with
  | nil =>
    refine ⟨?_, fun _ => ⟨clock, h⟩⟩
    rintro ⟨pre, hpre, hle⟩
    rw [List.prefix_nil.1 hpre] at hle
    exact absurd hle (UInt32.not_le.2 hk)
  | cons d ds ih =>
    obtain ⟨hnot, hmatch⟩ := h.tick sched (hpos d List.mem_cons_self)
    have hpos' : ∀ d ∈ ds, 0 < d := fun d hd => hpos d (List.mem_cons_of_mem _ hd)
    -- either this jump ends at or behind the compare value, or the timer is underway after it
    by_cases hle : c ≤ k + countedOf clock.cycles d
    · refine ⟨fun _ => (hmatch hle).jumps, ?_⟩
      intro hbelow
      exact absurd hle (hbelow [d] ⟨ds, rfl⟩)
    · obtain ⟨hreached, hbelow⟩ := ih (hnot hle) (UInt32.not_le.1 hle) hpos'
      constructor
      · rintro ⟨pre, hpre, hfar⟩
        rcases List.prefix_cons_iff.1 hpre with rfl | ⟨rest, rfl, hrest⟩
        · exact absurd hfar (UInt32.not_le.2 hk)
        · exact hreached ⟨rest, hrest, hfar⟩
      · intro hall
        refine hbelow fun pre hpre => hall (d :: pre) ?_
        exact List.prefix_cons_iff.2 (.inr ⟨pre, rfl, hpre⟩)

variable (self : Cb) (sched) in
theorem underway_start (clock : SimulationClock) (hclock : t.clock = true)
    (hsched : t.scheduler = false) :
    (t.clearMatch.start self clock sched).1.Underway clock t.compare t.counter := by
  let u : Timer := { t.clearMatch.enabled with lastClockCycles := clock.cycles }
  have hsync : t.clearMatch.enabled.syncClock clock = u := if_pos hclock
  have hstart : u.updateScheduledEvent self clock sched = (u, sched) :=
    updateScheduledEvent_of_detached hsched
  rw [start, hsync, hstart]
  refine ⟨hclock, hsched, running_enabled, ?_, rfl, rfl, rfl⟩
  simp [u, hasMatch, enabled, clearMatch]

/-- **Jumps of the clock.**  The match is not missed iff the counter is at or behind the compare
value after one of the jumps; jumps too short for a match are counted iff the clock does not wrap
in one of them by more than a cycle. -/
theorem inTime_iff (self : Cb) (t : Timer) (clock : SimulationClock) (sched : EventScheduler Cb)
    (ds : List UInt64) (hclock : t.clock = true) (hsched : t.scheduler = false)
    (hk : t.counter < t.compare) (hpos : ∀ d ∈ ds, 0 < d) :
    InTime t.compare t.counter (total ds)
        ((t.clearMatch.start self clock sched).1.jumps sched clock ds) ↔
      if t.compare.toNat - t.counter.toNat ≤ total ds then
        ∃ pre, pre <+: ds ∧ t.compare ≤ position t.counter clock.cycles pre
      else AllCounted clock.cycles ds := by
  have hk' := UInt32.lt_iff_toNat_lt.1 hk
  obtain ⟨hreached, hbelow⟩ :=
    (underway_start sched self clock hclock hsched).jumps sched hk hpos
  split_ifs with hdue
  · -- a match is due
    constructor
    · intro h
      by_contra hnone
      obtain ⟨clock', hunderway⟩ := hbelow fun pre hpre hle => hnone ⟨pre, hpre, hle⟩
      exact Bool.false_ne_true (hunderway.unmatched.symm.trans (h.hasMatch_iff.2 hdue))
    · intro hex
      have hmatch := hreached hex
      exact ⟨iff_of_true hmatch.matched hdue, fun _ => ⟨hmatch.counter, hmatch.running⟩,
        fun hlt => absurd hdue (not_le.2 hlt)⟩
  · -- no match is due, and none happens
    obtain ⟨hnone, -, hall⟩ := position_of_lt clock.cycles hpos
      (k := t.counter) (c := t.compare) (by omega)
    obtain ⟨clock', hunderway⟩ := hbelow hnone
    rw [← hall, ← hunderway.counter]
    constructor
    · intro h
      exact (h.waiting (not_le.1 hdue)).1
    · intro hcounter
      exact ⟨iff_of_false (by simp [hunderway.unmatched]) hdue, fun h => absurd h hdue,
        fun _ => ⟨hcounter, hunderway.running⟩⟩

/-- A timer with a clock, at 0, that is to match at 10. -/
def toTen : Timer := { new with clock := true, compareRegister := .new 10 }

/-- A scheduler without events. -/
def noEvents : EventScheduler Unit := .init

/-- Jumps by 4 and 7 cycles are in time. -/
theorem inTime_jumps : InTime 10 0 11
    ((toTen.clearMatch.start () ⟨0⟩ noEvents).1.jumps noEvents ⟨0⟩ [4, 7]) := by
  refine (inTime_iff () toTen ⟨0⟩ noEvents [4, 7] rfl rfl (by decide) (by simp)).2 ?_
  rw [if_pos (by decide)]
  exact ⟨[4, 7], List.prefix_refl _, by decide⟩

/-- A jump by `2 ^ 32` cycles leaves the counter at 0. -/
theorem not_inTime_jump : ¬ InTime 10 0 (2 ^ 32)
    ((toTen.clearMatch.start () ⟨0⟩ noEvents).1.jumps noEvents ⟨0⟩ [4294967296]) := by
  intro h
  have hcounter := (h.reached (by decide)).1
  exact absurd hcounter (by decide)

end Timer

end Drivers

end EFS
