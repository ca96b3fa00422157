import EFS.System.SimulationClock
import Mathlib.Tactic

/-!
# Elapsed time

The frequency of `SimulationClock` and its conversions of the cycle count to a time.  A conversion
multiplies first, modulo `2 ^ 64`, and then divides by the frequency.

* `tellsTime_iff` : a conversion tells the time exactly iff the product does not wrap.
* `not_tellsTime_nanoseconds` : at 1 MHz the nanoseconds wrap after about five hours.
-/

namespace EFS

namespace System

/-- A clock with its frequency, which is not 0: the constructor and `setFrequency` refuse that. -/
structure FrequencyClock extends SimulationClock where
  frequencyHz : UInt64
  frequencyHz_ne_zero : frequencyHz ≠ 0

namespace FrequencyClock

/-- `DEFAULT_FREQUENCY_HZ`. -/
def defaultFrequencyHz : UInt64 := 1000000

/-- A clock as its constructor leaves it. -/
def new (frequencyHz : UInt64) : Except String FrequencyClock :=
  if h : frequencyHz = 0 then .error "Clock frequency cannot be 0"
  else .ok ⟨⟨0⟩, frequencyHz, h⟩

variable (c : FrequencyClock)

/-- `tick()`. -/
def tick (count : UInt64) : FrequencyClock :=
  { c with toSimulationClock := c.toSimulationClock.tick count }

/-- The conversions differ in the number of time units in a second. -/
def elapsed (perSecond : UInt64) : UInt64 :=
  if c.frequencyHz = 0 then 0 else c.cycles * perSecond / c.frequencyHz

/-- `elapsedNanoseconds()`. -/
def elapsedNanoseconds : UInt64 := c.elapsed 1000000000

/-- `elapsedMicroseconds()`. -/
def elapsedMicroseconds : UInt64 := c.elapsed 1000000

/-- `elapsedMilliseconds()`. -/
def elapsedMilliseconds : UInt64 := c.elapsed 1000

/-- The units of time that a clock converts to. -/
inductive TimeUnit
  | nanoseconds
  | microseconds
  | milliseconds

/-- How many of a unit make a second. -/
def TimeUnit.perSecond : TimeUnit → ℕ
  | .nanoseconds => 10 ^ 9
  | .microseconds => 10 ^ 6
  | .milliseconds => 10 ^ 3

/-- The conversion to a unit. -/
def elapsedIn : TimeUnit → UInt64
  | .nanoseconds => c.elapsedNanoseconds
  | .microseconds => c.elapsedMicroseconds
  | .milliseconds => c.elapsedMilliseconds

/-! ### The exact time -/

variable (u : TimeUnit)

/-- The time that has elapsed, rounded down. -/
def exactTime : ℕ := c.cycles.toNat * u.perSecond / c.frequencyHz.toNat

/-- The exact time fits into 64 bits. -/
def InRange : Prop := c.exactTime u < 2 ^ 64

/-- A time that fits into 64 bits is reported exactly. -/
def ReportsExactly : Prop := c.InRange u → (c.elapsedIn u).toNat = c.exactTime u

/-- The product of a conversion does not wrap, unless the time is out of range anyway. -/
def Fits : Prop := c.InRange u → c.cycles.toNat * u.perSecond < 2 ^ 64

/-- The clock is exact before and after a tick, and its time does not go back. -/
structure TellsTime (count : UInt64) : Prop where
  before : c.ReportsExactly u
  after : (c.tick count).ReportsExactly u
  mono : c.InRange u → (c.tick count).InRange u → c.elapsedIn u ≤ (c.tick count).elapsedIn u

variable {c} {u}

/-- A quotient survives the reduction of the dividend only if that changes nothing. -/
theorem mod_div_eq_iff {p w f : ℕ} (hf : 0 < f) (hfw : f ≤ w) : p % w / f = p / f ↔ p < w := by
  constructor
  · intro heq
    -- the reduction takes at least `w` away, so that the quotient is less by 1 at least
    by_contra hp
    have hwrap : p % w + f ≤ p := by
      have hone : 1 ≤ p / w := (Nat.one_le_div_iff (by omega)).2 (by omega)
      have hw : w * 1 ≤ w * (p / w) := Nat.mul_le_mul_left w hone
      have hp' : w * (p / w) + p % w = p := Nat.div_add_mod p w
      omega
    have hless : p % w / f + 1 ≤ p / f := by
      rw [← Nat.add_div_right _ hf]
      exact Nat.div_le_div_right hwrap
    omega
  · intro hp
    rw [Nat.mod_eq_of_lt hp]

theorem frequencyHz_pos (c : FrequencyClock) : 0 < c.frequencyHz.toNat := by
  have hne : c.frequencyHz.toNat ≠ 0 := fun h => c.frequencyHz_ne_zero (UInt64.toNat_inj.1 h)
  omega

theorem toNat_elapsedIn (c : FrequencyClock) (u : TimeUnit) :
    (c.elapsedIn u).toNat = c.cycles.toNat * u.perSecond % 2 ^ 64 / c.frequencyHz.toNat := by
  cases u with
  | nanoseconds | microseconds | milliseconds =>
    show (c.elapsed _).toNat = _
    rw [elapsed, if_neg c.frequencyHz_ne_zero, UInt64.toNat_div, UInt64.toNat_mul]
    rfl

theorem reportsExactly_iff : c.ReportsExactly u ↔ c.Fits u := by
  refine forall_congr' ?_
  intro _
  rw [toNat_elapsedIn, exactTime]
  exact mod_div_eq_iff c.frequencyHz_pos c.frequencyHz.toNat_lt.le

/-- **Elapsed time.**  Around a tick a conversion is exact and monotone iff its products do not
wrap, and the cycle count does not wrap either, or not by a whole unit of time. -/
theorem tellsTime_iff (c : FrequencyClock) (u : TimeUnit) (count : UInt64) :
    c.TellsTime u count ↔ c.Fits u ∧ (c.tick count).Fits u ∧
      (c.InRange u → (c.tick count).InRange u →
        c.cycles ≤ (c.tick count).cycles ∨ c.exactTime u = (c.tick count).exactTime u) := by
  -- as both times are exact, they can be compared instead of the reported ones
  have hmono (hb : c.ReportsExactly u) (ha : (c.tick count).ReportsExactly u)
      (hr : c.InRange u) (hr' : (c.tick count).InRange u) :
      c.elapsedIn u ≤ (c.tick count).elapsedIn u ↔
        c.cycles ≤ (c.tick count).cycles ∨ c.exactTime u = (c.tick count).exactTime u := by
    rw [UInt64.le_iff_toNat_le, UInt64.le_iff_toNat_le, hb hr, ha hr']
    rcases le_total c.cycles.toNat (c.tick count).cycles.toNat with hle | hle
    · have htime : c.exactTime u ≤ (c.tick count).exactTime u :=
        Nat.div_le_div_right (Nat.mul_le_mul_right _ hle)
      simp [hle, htime]
    · -- the cycle count has wrapped
      have htime : (c.tick count).exactTime u ≤ c.exactTime u :=
        Nat.div_le_div_right (Nat.mul_le_mul_right _ hle)
      constructor
      · intro h
        exact .inr (h.antisymm htime)
      · rintro (h | h)
        · exact Nat.div_le_div_right (Nat.mul_le_mul_right _ h)
        · exact h.le
  constructor
  · intro h
    exact ⟨reportsExactly_iff.1 h.before, reportsExactly_iff.1 h.after,
      fun hr hr' => (hmono h.before h.after hr hr').1 (h.mono hr hr')⟩
  · rintro ⟨hfits, hfits', h⟩
    have hb : c.ReportsExactly u := reportsExactly_iff.2 hfits
    have ha : (c.tick count).ReportsExactly u := reportsExactly_iff.2 hfits'
    exact ⟨hb, ha, fun hr hr' => (hmono hb ha hr hr').2 (h hr hr')⟩

/-- A clock of 1 MHz after `18446744074` cycles. -/
def fiveHours : FrequencyClock := ⟨⟨18446744074⟩, defaultFrequencyHz, by decide⟩

example : (new defaultFrequencyHz).map (fun c => c.tick 18446744074) = .ok fiveHours := rfl

/-- It reports 290 ns.  The nanoseconds that have elapsed are far below `2 ^ 64`. -/
theorem not_tellsTime_nanoseconds : fiveHours.elapsedNanoseconds = 290 ∧
    fiveHours.exactTime .nanoseconds = 18446744074000 ∧
    ∀ count, ¬ fiveHours.TellsTime .nanoseconds count := by
  refine ⟨by decide, by decide, ?_⟩
  intro count h
  have hexact : (fiveHours.elapsedIn .nanoseconds).toNat = fiveHours.exactTime .nanoseconds :=
    h.before (by unfold InRange; decide)
  exact absurd hexact (by decide)

end FrequencyClock

end System

end EFS
