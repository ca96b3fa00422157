import EFS.Drivers.Pwm
import EFS.LTS.Histories

/-!
# The tick arithmetic of the PWM controller

The period and the on-ticks are computed from FREQ and DUTY.  The setters check what they write, but
a program can write both registers on the bus, and `setFrequency` takes DUTY as it finds it.

* `call?` : the operations with divisions that fail on a divisor of 0; they never do
  (`call?_eq_some`).
* `inRange_iff_allowed` : the on-ticks stay within the period iff each frequency is set while DUTY
  is small enough for the clock cycles of its period.
-/

namespace EFS

namespace Drivers

open EFS.Mmio

/-! ### Divisions -/

/-- Unsigned division, which must not be by 0. -/
def div? (a b : UInt32) : Option UInt32 := if b = 0 then none else some (a / b)

/-- The remainder of an unsigned division, which must not be by 0. -/
def mod? (a b : UInt32) : Option UInt32 := if b = 0 then none else some (a % b)

namespace PWMController

section

variable (p : PWMController)

/-- `outputState()` with a checked remainder. -/
def outputState? : Option Bool :=
  if ¬ p.enabled then some false
  else if p.dutyCycle = 0 then some false
  else if p.dutyCycle = 100 then some true
  else do
    let cnt ← if 0 < p.periodTicks then mod? p.timer.counter p.periodTicks else some 0
    return cnt < p.onTicks

/-- `updateStatusRegister()` with a checked remainder. -/
def updateStatusRegister? : Option PWMController := do
  let status := if p.enabled then statusEnabledBit else 0
  let output ← p.outputState?
  let status := if output then status ||| statusOutputBit else status
  return { p with statusRegister := p.statusRegister.write status }

/-- `updatePeriodAndDuty()` with checked divisions. -/
def updatePeriodAndDuty? : Option PWMController := do
  let freq := if p.frequency = 0 then 1 else p.frequency
  let ticks ← div? p.systemClockHz freq
  let periodTicks := if ticks = 0 then 1 else ticks
  return { p with
    periodTicks
    onTicks := (periodTicks.toUInt64 * p.dutyCycle.toUInt64 / 100).toUInt32
    timer :=
      if p.enabled then (p.timer.setCompare () nullClock nullScheduler periodTicks).1 else p.timer }

/-- Performs a call, unless it divides by 0. -/
def call? : PWMCall → Option PWMController
  | .enable => updateStatusRegister? { p with
      controlRegister := p.controlRegister.write (p.controlRegister.read ||| pwmCtrlEnableBit)
      timer := ((p.timer.setAutoReset true).setCompare () nullClock nullScheduler p.periodTicks).1
        |>.start () nullClock nullScheduler |>.1 }
  | .disable => updateStatusRegister? { p with
      controlRegister := p.controlRegister.write (p.controlRegister.read &&& ~~~pwmCtrlEnableBit)
      timer := (p.timer.stop nullScheduler).1 }
  | .setFrequency frequencyHz =>
    if frequencyHz = 0 ∨ p.systemClockHz < frequencyHz then some p
    else do
      let q ← updatePeriodAndDuty? { p with freqRegister := p.freqRegister.write frequencyHz }
      q.updateStatusRegister?
  | .setDutyCycle percent =>
    if 100 < percent then some p
    else do
      let q ← updatePeriodAndDuty? { p with dutyRegister := p.dutyRegister.write percent }
      q.updateStatusRegister?
  | .tick =>
    if p.enabled then
      let timer :=
        if p.timer.running then p.timer else (p.timer.start () nullClock nullScheduler).1
      updateStatusRegister? { p with timer := (timer.tick nullClock nullScheduler).1 }
    else p.updateStatusRegister?
  | .reset => do
    let q ← updateStatusRegister? { p with
      controlRegister := p.controlRegister.write (p.controlRegister.read &&& ~~~pwmCtrlEnableBit)
      timer := (p.timer.stop nullScheduler).1 }
    let q ← updatePeriodAndDuty? { q with
      controlRegister := q.controlRegister.reset
      freqRegister := q.freqRegister.reset
      dutyRegister := q.dutyRegister.reset
      timer := (q.timer.reset nullClock nullScheduler).1 }
    q.updateStatusRegister?

/-! ### No division by 0 -/

theorem outputState?_eq_some : p.outputState? = some p.outputState := by
  rw [outputState?, outputState]
  by_cases hperiod : 0 < p.periodTicks
  · have hne : ¬ p.periodTicks = 0 := (UInt32.pos_iff_ne_zero.1 hperiod)
    simp only [if_pos hperiod, mod?, if_neg hne]
    split_ifs <;> rfl
  · simp only [if_neg hperiod]
    split_ifs <;> rfl

theorem updateStatusRegister?_eq_some : p.updateStatusRegister? = some p.updateStatusRegister := by
  rw [updateStatusRegister?, outputState?_eq_some]
  rfl

theorem updatePeriodAndDuty?_eq_some : p.updatePeriodAndDuty? = some p.updatePeriodAndDuty := by
  have hfreq : ¬ (if p.frequency = 0 then 1 else p.frequency) = 0 := by
    split_ifs with h
    · decide
    · exact h
  rw [updatePeriodAndDuty?, div?, if_neg hfreq]
  rfl

/-- Each call divides only by divisors other than 0. -/
theorem call?_eq_some (c : PWMCall) : p.call? c = some (p.call c) := by
  cases c with
  | enable => exact updateStatusRegister?_eq_some _
  | disable => exact updateStatusRegister?_eq_some _
  | setFrequency frequencyHz =>
    rw [call?, call, setFrequency]
    split_ifs
    · rfl
    · rw [updatePeriodAndDuty?_eq_some]
      exact updateStatusRegister?_eq_some _
  | setDutyCycle percent =>
    rw [call?, call, setDutyCycle]
    split_ifs
    · rfl
    · rw [updatePeriodAndDuty?_eq_some]
      exact updateStatusRegister?_eq_some _
  | tick =>
    rw [call?, call, tick]
    split_ifs
    · exact updateStatusRegister?_eq_some _
    · exact updateStatusRegister?_eq_some _
    · exact updateStatusRegister?_eq_some _
  | reset =>
    rw [call?, updateStatusRegister?_eq_some, Option.bind_eq_bind, Option.bind_some,
      updatePeriodAndDuty?_eq_some]
    exact updateStatusRegister?_eq_some _

end

/-! ### On-ticks -/

section

variable (n d : UInt32)

/-- The product of 64 bits is exact, but the quotient may not fit in 32 bits. -/
theorem toNat_onTicksOf_mod : (onTicksOf n d).toNat = n.toNat * d.toNat / 100 % 2 ^ 32 := by
  have hn := n.toNat_lt
  have hd := d.toNat_lt
  have hmul : n.toNat * d.toNat < 2 ^ 32 * 2 ^ 32 := Nat.mul_lt_mul'' hn hd
  have hprod : (n.toUInt64 * d.toUInt64).toNat = n.toNat * d.toNat := by
    rw [UInt64.toNat_mul, UInt32.toNat_toUInt64, UInt32.toNat_toUInt64]
    exact Nat.mod_eq_of_lt hmul
  have h100 : UInt64.toNat 100 = 100 := rfl
  rw [onTicksOf, UInt64.toNat_toUInt32, UInt64.toNat_div, hprod, h100]

/-- The on-ticks are exact and within the period iff they are so before they are stored. -/
theorem onTicksOf_fits_iff :
    ((onTicksOf n d).toNat = n.toNat * d.toNat / 100 ∧ onTicksOf n d ≤ n) ↔
      n.toNat * d.toNat / 100 ≤ n.toNat := by
  rw [UInt32.le_iff_toNat_le]
  constructor
  · rintro ⟨hexact, hle⟩
    exact hexact ▸ hle
  · intro hle
    have hexact : (onTicksOf n d).toNat = n.toNat * d.toNat / 100 := by
      rw [toNat_onTicksOf_mod]
      exact Nat.mod_eq_of_lt (hle.trans_lt n.toNat_lt)
    exact ⟨hexact, hexact ▸ hle⟩

/-- A percentage of `n` is at most `n` iff what is above 100 percent is less than one. -/
theorem mul_div_le_iff : n.toNat * d.toNat / 100 ≤ n.toNat ↔ n.toNat * (d.toNat - 100) < 100 := by
  rw [Nat.mul_sub, Nat.div_le_iff_le_mul_add_pred (by decide)]
  omega

variable {d} in
theorem mul_div_le_of_percent (hd : d ≤ 100) : n.toNat * d.toNat / 100 ≤ n.toNat := by
  have hd : d.toNat - 100 = 0 := Nat.sub_eq_zero_of_le (UInt32.le_iff_toNat_le.1 hd)
  rw [mul_div_le_iff, hd, Nat.mul_zero]
  decide

end

variable {p : PWMController}

/-- The period and the on-ticks are those of FREQ and DUTY. -/
structure Updated (p : PWMController) : Prop where
  period : 1 ≤ p.periodTicks
  onTicks : p.onTicks = onTicksOf p.periodTicks p.dutyCycle

theorem updated_updatePeriodAndDuty (p : PWMController) : p.updatePeriodAndDuty.Updated := by
  have hone (x : UInt32) : 1 ≤ if x = 0 then 1 else x := by
    split_ifs with h
    · decide
    · exact UInt32.le_iff_toNat_le.2 (UInt32.lt_iff_toNat_lt.1 (UInt32.pos_iff_ne_zero.2 h))
  exact ⟨hone _, rfl⟩

/-- The call makes `updatePeriodAndDuty` compute anew. -/
def updates (p : PWMController) : PWMCall → Bool
  | .setFrequency frequencyHz => ¬ (frequencyHz = 0 ∨ p.systemClockHz < frequencyHz)
  | .setDutyCycle percent => ¬ 100 < percent
  | .reset => true
  | .enable | .disable | .tick => false

theorem updated_call {c : PWMCall} (h : p.updates c = true) : (p.call c).Updated := by
  have hupdated (q : PWMController) : q.updatePeriodAndDuty.updateStatusRegister.Updated :=
    ⟨(updated_updatePeriodAndDuty q).period, (updated_updatePeriodAndDuty q).onTicks⟩
  cases c with
  | enable | disable | tick => cases h
  | setFrequency frequencyHz =>
    rw [call, setFrequency, if_neg (of_decide_eq_true h)]
    exact hupdated _
  | setDutyCycle percent =>
    rw [call, setDutyCycle, if_neg (of_decide_eq_true h)]
    exact hupdated _
  | reset => exact hupdated _

/-- Other calls leave the period and the on-ticks. -/
theorem call_of_not_updates {c : PWMCall} (h : p.updates c = false) :
    (p.call c).periodTicks = p.periodTicks ∧ (p.call c).onTicks = p.onTicks := by
  cases c with
  | enable | disable => exact ⟨rfl, rfl⟩
  | tick =>
    rw [call, tick]
    split_ifs <;> exact ⟨rfl, rfl⟩
  | setFrequency frequencyHz =>
    rw [call, setFrequency, if_pos (not_not.1 (of_decide_eq_false h))]
    exact ⟨rfl, rfl⟩
  | setDutyCycle percent =>
    rw [call, setDutyCycle, if_pos (not_not.1 (of_decide_eq_false h))]
    exact ⟨rfl, rfl⟩
  | reset => cases h

/-! ### Programs that write the registers -/

/-- What a program does: a call, or a write to FREQ or DUTY on the bus. -/
inductive Action
  | call (c : PWMCall)
  | writeFreq (value : UInt32)
  | writeDuty (value : UInt32)

/-- A controller, and what `updatePeriodAndDuty` has last read from DUTY. -/
structure Metered where
  controller : PWMController
  usedDuty : UInt32

namespace Metered

/-- The action, unless it divides by 0. -/
def act? (s : Metered) : Action → Option Metered
  | .call c => (s.controller.call? c).map fun p =>
    ⟨p, if s.controller.updates c then p.dutyCycle else s.usedDuty⟩
  | .writeFreq value => some { s with controller := { s.controller with
      freqRegister := s.controller.freqRegister.write value } }
  | .writeDuty value => some { s with controller := { s.controller with
      dutyRegister := s.controller.dutyRegister.write value } }

/-- The period is at least one tick, and the on-ticks are exact and within it. -/
structure InRange (s : Metered) : Prop where
  period : 1 ≤ s.controller.periodTicks
  exact_onTicks : s.controller.onTicks.toNat =
    s.controller.periodTicks.toNat * s.usedDuty.toNat / 100
  onTicks_le : s.controller.onTicks ≤ s.controller.periodTicks

/-- A frequency is set while DUTY is at most 100, or exceeds it by so little that a period of the
clock cycles `n` of that frequency has less than one on-tick in excess. -/
def allows (s : Metered) : Action → Prop
  | .call (.setFrequency frequencyHz) =>
    frequencyHz ≠ 0 → frequencyHz ≤ s.controller.systemClockHz →
      (s.controller.systemClockHz / frequencyHz).toNat * (s.controller.dutyCycle.toNat - 100) < 100
  | _ => True

theorem act?_call (s : Metered) (c : PWMCall) : s.act? (.call c) = some ⟨s.controller.call c,
    if s.controller.updates c then (s.controller.call c).dutyCycle else s.usedDuty⟩ := by
  rw [act?, call?_eq_some]
  rfl

theorem isSome_act? (s : Metered) (a : Action) : (s.act? a).isSome = true := by
  cases a with
  | call c => rw [act?_call, Option.isSome_some]
  | writeFreq value => rfl
  | writeDuty value => rfl

/-- The runs of a controller; a division by zero would stop one. -/
def machine : LTS Metered Action where
  step s a t := s.act? a = some t

theorem periodTicks_setFrequency {frequencyHz : UInt32} (h₀ : frequencyHz ≠ 0)
    (hle : frequencyHz ≤ p.systemClockHz) :
    (p.call (.setFrequency frequencyHz)).periodTicks = p.systemClockHz / frequencyHz := by
  have hvalid : Valid p.systemClockHz frequencyHz 0 :=
    ⟨UInt32.pos_iff_ne_zero.2 h₀, hle, by decide⟩
  have hne := UInt32.pos_iff_ne_zero.1 hvalid.period_pos
  have haccepted : ¬ (frequencyHz = 0 ∨ p.systemClockHz < frequencyHz) :=
    not_or.2 ⟨h₀, UInt32.not_lt.2 hle⟩
  rw [PWMController.call, setFrequency, if_neg haccepted]
  show (if p.systemClockHz / (if frequencyHz = 0 then 1 else frequencyHz) = 0 then 1
    else p.systemClockHz / (if frequencyHz = 0 then 1 else frequencyHz)) = _
  rw [if_neg h₀, if_neg hne]

theorem dutyCycle_setFrequency (frequencyHz : UInt32) :
    (p.call (.setFrequency frequencyHz)).dutyCycle = p.dutyCycle := by
  rw [PWMController.call, setFrequency]
  split_ifs <;> rfl

theorem inRange_iff (h : p.Updated) : InRange ⟨p, p.dutyCycle⟩ ↔
    p.periodTicks.toNat * p.dutyCycle.toNat / 100 ≤ p.periodTicks.toNat := by
  rw [← onTicksOf_fits_iff, ← h.onTicks]
  exact ⟨fun hin => ⟨hin.exact_onTicks, hin.onTicks_le⟩, fun hfits => ⟨h.period, hfits.1, hfits.2⟩⟩

section

variable {hz f d : UInt32} {s t : Metered} {a : Action}

theorem built_step (h : Built hz f d s.controller) (hstep : machine.step s a t) :
    Built hz f d t.controller := by
  cases a with
  | call c =>
    obtain rfl := Option.some.inj ((s.act?_call c).symm.trans hstep)
    exact h.call c
  | writeFreq value =>
    obtain rfl := Option.some.inj hstep
    exact ⟨h.systemClockHz, h.control, h.freq, h.duty, h.timer⟩
  | writeDuty value =>
    obtain rfl := Option.some.inj hstep
    exact ⟨h.systemClockHz, h.control, h.freq, h.duty, h.timer⟩

/-- After a call that computes anew, the on-ticks are in range if the call is allowed. -/
theorem inRange_call (hv : Valid hz f d) (h : Built hz f d s.controller) {c : PWMCall}
    (hupdates : s.controller.updates c = true) (hallows : s.allows (.call c)) :
    InRange ⟨s.controller.call c, (s.controller.call c).dutyCycle⟩ := by
  rw [inRange_iff (updated_call hupdates)]
  cases c with
  | enable | disable | tick => cases hupdates
  | setFrequency frequencyHz =>
    have haccepted := of_decide_eq_true hupdates
    obtain ⟨h₀, hlt⟩ := not_or.1 haccepted
    have hle := UInt32.not_lt.1 hlt
    rw [periodTicks_setFrequency h₀ hle, dutyCycle_setFrequency]
    exact (mul_div_le_iff _ _).2 (hallows h₀ hle)
  | setDutyCycle percent =>
    have haccepted := of_decide_eq_true hupdates
    have hduty : (s.controller.call (.setDutyCycle percent)).dutyCycle = percent := by
      rw [PWMController.call, setDutyCycle, if_neg haccepted]
      rfl
    rw [hduty]
    exact mul_div_le_of_percent _ (UInt32.not_lt.1 haccepted)
  | reset =>
    have hduty : (s.controller.call .reset).dutyCycle = d := h.duty
    rw [hduty]
    exact mul_div_le_of_percent _ hv.duty

theorem inRange_step (hv : Valid hz f d) (h : Built hz f d s.controller) (hin : s.InRange)
    (hstep : machine.step s a t) (hallows : s.allows a) : t.InRange := by
  cases a with
  | call c =>
    obtain rfl := Option.some.inj ((s.act?_call c).symm.trans hstep)
    cases hupdates : s.controller.updates c with
    | true => exact inRange_call hv h hupdates hallows
    | false =>
      obtain ⟨hperiod, honTicks⟩ := call_of_not_updates hupdates
      refine ⟨?_, ?_, ?_⟩
      · exact hperiod ▸ hin.period
      · show (s.controller.call c).onTicks.toNat = (s.controller.call c).periodTicks.toNat * _ / 100
        rw [honTicks, hperiod]
        exact hin.exact_onTicks
      · show (s.controller.call c).onTicks ≤ (s.controller.call c).periodTicks
        rw [honTicks, hperiod]
        exact hin.onTicks_le
  | writeFreq value =>
    obtain rfl := Option.some.inj hstep
    exact ⟨hin.period, hin.exact_onTicks, hin.onTicks_le⟩
  | writeDuty value =>
    obtain rfl := Option.some.inj hstep
    exact ⟨hin.period, hin.exact_onTicks, hin.onTicks_le⟩

/-- A frequency that is not allowed leaves on-ticks that are not in range. -/
theorem not_inRange_step (hstep : machine.step s a t) (hallows : ¬ s.allows a) : ¬ t.InRange := by
  cases a with
  | writeFreq value => exact absurd trivial hallows
  | writeDuty value => exact absurd trivial hallows
  | call c =>
    cases c with
    | enable | disable | tick | reset | setDutyCycle _ => exact absurd trivial hallows
    | setFrequency frequencyHz =>
      obtain rfl := Option.some.inj ((s.act?_call _).symm.trans hstep)
      intro hin
      refine hallows fun h₀ hle => ?_
      have haccepted : ¬ (frequencyHz = 0 ∨ s.controller.systemClockHz < frequencyHz) :=
        not_or.2 ⟨h₀, UInt32.not_lt.2 hle⟩
      have hupdates : s.controller.updates (.setFrequency frequencyHz) = true :=
        decide_eq_true haccepted
      rw [if_pos hupdates] at hin
      have hfits := (inRange_iff (updated_call hupdates)).1 hin
      rw [periodTicks_setFrequency h₀ hle, dutyCycle_setFrequency] at hfits
      exact (mul_div_le_iff _ _).1 hfits

end

theorem inRange_new {a b : Bool} {s f d : UInt32} (h : PWMController.new a b f d s = .ok p) :
    InRange ⟨p, d⟩ := by
  obtain ⟨hv, -, hfresh⟩ := new_ok h
  have hupdated : p.Updated := by
    refine ⟨?_, ?_⟩
    · rw [hfresh.period]
      exact UInt32.le_iff_toNat_le.2 (UInt32.lt_iff_toNat_lt.1 hv.period_pos)
    · rw [hfresh.onTicks, hfresh.period, hfresh.duty]
  have hin := (inRange_iff hupdated).2 (mul_div_le_of_percent _ (hfresh.duty.symm ▸ hv.duty))
  rwa [hfresh.duty] at hin

/-- **The range of the on-ticks.**  No action divides by 0 and the period is at least one tick; the
on-ticks are exact and within the period throughout a run iff each frequency is set while DUTY is
small enough for the clock cycles of its period. -/
theorem inRange_iff_allowed {a b : Bool} {hz f d : UInt32}
    (hnew : PWMController.new a b f d hz = .ok p) (as : List Action) :
    (machine.Throughout InRange ⟨p, d⟩ as ↔ machine.Allowed allows ⟨p, d⟩ as) ∧
      ∀ s, machine.Run ⟨p, d⟩ as s →
        1 ≤ s.controller.periodTicks ∧ ∀ action, (s.act? action).isSome = true := by
  obtain ⟨hv, hbuilt, -⟩ := new_ok hnew
  refine ⟨?_, ?_⟩
  · -- an allowed step keeps the range, and any other one leaves it
    refine LTS.throughout_iff_allowed (I := fun s => Built hz f d s.controller ∧ s.InRange)
      (fun s action => Option.isSome_iff_exists.1 (s.isSome_act? action)) ⟨hbuilt, inRange_new hnew⟩
      (fun s h => h.2) ?_ ?_
    · intro s action t h hstep hallows
      exact ⟨built_step h.1 hstep, inRange_step hv h.1 h.2 hstep hallows⟩
    · intro s action t _ hstep hallows
      exact not_inRange_step hstep hallows
  · intro s hrun
    refine ⟨?_, s.isSome_act?⟩
    refine hrun.invariant (I := fun s => 1 ≤ s.controller.periodTicks) (inRange_new hnew).period ?_
    intro s action t hs hstep
    cases action with
    | call c =>
      obtain rfl := Option.some.inj ((s.act?_call c).symm.trans hstep)
      cases hupdates : s.controller.updates c with
      | true => exact (updated_call hupdates).period
      | false => exact (call_of_not_updates hupdates).1 ▸ hs
    | writeFreq value =>
      obtain rfl := Option.some.inj hstep
      exact hs
    | writeDuty value =>
      obtain rfl := Option.some.inj hstep
      exact hs

/-- FREQ may be written with anything, and DUTY with up to 100. -/
theorem inRange_fourTicks : machine.Throughout InRange ⟨fourTicks, 50⟩
    [.writeFreq 0, .writeDuty 100, .call (.setFrequency 2)] := by
  have hnew : PWMController.new true true 1 50 4 = .ok fourTicks := rfl
  refine (inRange_iff_allowed hnew _).1.2 (.cons trivial ?_)
  rintro - ⟨⟩
  refine .cons trivial ?_
  rintro - ⟨⟩
  exact .cons (fun _ _ => by decide) fun _ _ => .nil

/-- A duty cycle of 200 is on the bus when the frequency is set: eight on-ticks in a period of
four. -/
theorem not_inRange_fourTicks : PWMController.new true true 1 50 4 = .ok fourTicks ∧
    ¬ machine.Throughout InRange ⟨fourTicks, 50⟩ [.writeDuty 200, .call (.setFrequency 1)] := by
  refine ⟨rfl, fun h => ?_⟩
  have hin := h _ _ (List.prefix_refl _) (.cons rfl (.cons (act?_call _ _) (.nil _)))
  exact absurd hin.onTicks_le (by decide)

end Metered

end PWMController

end Drivers

end EFS
