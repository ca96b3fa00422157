import EFS.Firmware.ResetController
import EFS.System.Quiet

/-!
# When the sample applications throw

A call of a sample application throws iff it drives a pin that is an input (`MayHalt`, `MayStep`).
What else the calls rely on is kept by them, by a reset of the bus and by the hardware (`Sound`).
-/

namespace EFS

namespace Hal

open EFS.Drivers EFS.Mmio EFS.System

/-- There is a port, on which the pin is an input after a reset. -/
structure Port (h : GPIOHAL) (pin : UInt8) (output : Bool) : Prop where
  valid : pin.toNat < 32
  port : ∃ g, h.gpio = some g ∧ g.isOutputPin pin = output ∧ g.dirRegister.initialValue = 0

namespace Port

variable {h : GPIOHAL} {pin : UInt8} {output : Bool}

theorem configureOutput (hport : Port h pin output) :
    ∃ h', h.configureOutput pin = .ok h' ∧ Port h' pin true := by
  obtain ⟨g, hg, -, hinitial⟩ := hport.port
  obtain ⟨g', hconfigure, hout⟩ := GPIO.configurePin_output (g := g) hport.valid
  have hsame : g'.dirRegister.initialValue = _ := GPIO.configurePin_ok hconfigure .dir
  refine ⟨⟨some g'⟩, ?_, hport.valid, g', rfl, hout, hsame.trans hinitial⟩
  simp only [GPIOHAL.configureOutput, GPIOHAL.onDriver, hg, hconfigure]
  rfl

theorem write (hport : Port h pin true) (state : Bool) :
    ∃ h', h.write pin state = .ok h' ∧ Port h' pin true := by
  obtain ⟨g, hg, hout, hinitial⟩ := hport.port
  obtain ⟨g', hwrite, hdriven⟩ := GPIO.writePin_driven hport.valid hout state
  have hsame : g'.dirRegister.initialValue = _ := GPIO.writePin_ok hwrite .dir
  refine ⟨⟨some g'⟩, ?_, hport.valid, g', rfl, hdriven.output, hsame.trans hinitial⟩
  simp only [GPIOHAL.write, GPIOHAL.onDriver, hg, hwrite]
  rfl

theorem toggle (hport : Port h pin true) : ∃ h', h.toggle pin = .ok h' ∧ Port h' pin true := by
  obtain ⟨g, hg, hout, hinitial⟩ := hport.port
  obtain ⟨high, hread⟩ : ∃ high : Bool, g.readPin pin = .ok (if high then .high else .low) := by
    refine ⟨g.inRegister.read &&& GPIO.bit pin ≠ 0, ?_⟩
    rw [ GPIO.readPin, GPIO.validatePin_ok hport.valid]
    simp [bind, Except.bind, pure, Except.pure]
  obtain ⟨g', htoggle, hdriven⟩ := GPIO.Driven.togglePin ⟨hport.valid, hout, hread⟩
  have hsame : g'.dirRegister.initialValue = _ := GPIO.togglePin_ok htoggle .dir
  refine ⟨⟨some g'⟩, ?_, hport.valid, g', rfl, hdriven.output, hsame.trans hinitial⟩
  simp only [GPIOHAL.toggle, GPIOHAL.onDriver, hg, htoggle]
  rfl

theorem write_input (hport : Port h pin false) (state : Bool) :
    ∃ e, h.write pin state = .error e := by
  obtain ⟨g, hg, hout, -⟩ := hport.port
  refine ⟨"Cannot write to GPIO pin configured as Input: " ++ toString pin, ?_⟩
  simp only [GPIOHAL.write, GPIOHAL.onDriver, hg, GPIO.writePin, GPIO.validatePin_ok hport.valid]
  simp [bind, Except.bind, hout, Except.map]

theorem toggle_input (hport : Port h pin false) : ∃ e, h.toggle pin = .error e := by
  obtain ⟨g, hg, hout, -⟩ := hport.port
  refine ⟨"Cannot toggle GPIO pin configured as Input: " ++ toString pin, ?_⟩
  simp only [GPIOHAL.toggle, GPIOHAL.onDriver, hg, GPIO.togglePin, GPIO.validatePin_ok hport.valid]
  simp [bind, Except.bind, hout, Except.map]

theorem reset (hport : Port h pin output) : Port ⟨h.gpio.map GPIO.reset⟩ pin false := by
  obtain ⟨g, hg, -, hinitial⟩ := hport.port
  refine ⟨hport.valid, g.reset, by simp [hg], ?_, hinitial⟩
  simp [ GPIO.isOutputPin, GPIO.reset, hinitial]

end Port

/-- The calls of a timer HAL change nothing that `Kept` speaks of. -/
theorem TimerHAL.kept_onDriver {T H : Type} [DecidableEq T] {h : TimerHAL T} {b : Board T H}
    {op : T → Timer → Timer × EventScheduler T}
    (hinitial : ∀ r t, SameInitial t.register (op r t).1.register)
    (hline : ∀ r t, (op r t).1.line = t.line) : Kept b (h.onDriver b op) := by
  unfold TimerHAL.onDriver
  cases h.timer with
  | none => exact .refl b
  | some r => exact .setTimer (hinitial r _) (hline r _)

namespace TimerHAL

variable {T H : Type} [DecidableEq T] (h : TimerHAL T) (b : Board T H)

theorem kept_start : Kept b (h.start b) :=
  kept_onDriver (fun r t => t.sameInitial_start r _ _) fun r t => t.line_start r _ _

theorem kept_stop : Kept b (h.stop b) :=
  kept_onDriver (fun _ t => t.sameInitial_stop _) fun _ t => t.line_stop _

theorem kept_reset : Kept b (h.reset b) :=
  kept_onDriver (fun _ t => t.sameInitial_reset _ _) fun _ t => t.line_reset _ _

theorem kept_setCompare (value : UInt32) : Kept b (h.setCompare b value) :=
  kept_onDriver (fun r t => t.sameInitial_setCompare r _ _ value)
    fun r t => t.line_setCompare r _ _ value

end TimerHAL

end Hal

namespace Firmware

open EFS.Cpu EFS.Drivers EFS.Hal EFS.Mmio EFS.System

theorem BasicFirmware.not_live (f : BasicFirmware) :
    (!f.initialized || f.isShutdown) = !f.live := by
  rw [live, Bool.not_and, Bool.not_not]

theorem TimerBlinkFirmware.not_live (f : TimerBlinkFirmware) :
    (!f.initialized || f.isShutdown) = !f.live := by
  rw [live, Bool.not_and, Bool.not_not]

/-! ### The basic firmware -/

/-- The counter of the firmware is below the interval, and its pin is an output or not. -/
structure BasicSound (w : BasicWorld) (output : Bool) : Prop where
  port : Port w.gpioHAL w.firmware.pin output
  below : w.firmware.cycleCounter < w.firmware.toggleInterval

namespace BasicSound

variable {w : BasicWorld} {output : Bool}

theorem positive (h : BasicSound w output) : 0 < w.firmware.toggleInterval := by
  have hbelow := UInt64.lt_iff_toNat_lt.1 h.below
  exact UInt64.lt_iff_toNat_lt.2 (Nat.zero_lt_of_lt hbelow)

theorem initialise (h : BasicSound w output) :
    ∃ w', w.initialise = (w', none) ∧ BasicSound w' true := by
  obtain ⟨h₁, hconfigure, hport₁⟩ := h.port.configureOutput
  obtain ⟨h₂, hwrite, hport₂⟩ := hport₁.write false
  simp only [BasicWorld.initialise, hconfigure, hwrite]
  exact ⟨_, rfl, hport₂, h.positive⟩

theorem shutdown (h : BasicSound w output) (hmay : w.firmware.live → output = true) :
    ∃ w', w.shutdown = (w', none) ∧ BasicSound w' output ∧ w'.firmware.live = false := by
  by_cases hlive : w.firmware.live = true
  · obtain rfl := hmay hlive
    obtain ⟨h', hwrite, hport⟩ := h.port.write false
    rw [BasicFirmware.live] at hlive
    rw [BasicWorld.shutdown, if_pos hlive, hwrite]
    exact ⟨_, rfl, ⟨hport, h.below⟩, by simp [BasicFirmware.live]⟩
  · have hnot := hlive
    rw [BasicFirmware.live] at hnot
    rw [BasicWorld.shutdown, if_neg hnot]
    exact ⟨w, rfl, h, by simpa using hlive⟩

theorem shutdown_input (h : BasicSound w false) (hlive : w.firmware.live = true) :
    w.shutdown.2 ≠ none := by
  obtain ⟨e, hwrite⟩ := h.port.write_input false
  rw [BasicFirmware.live] at hlive
  rw [BasicWorld.shutdown, if_pos hlive, hwrite]
  exact Option.some_ne_none e

theorem reset (h : BasicSound w output) (hmay : w.firmware.live → output = true) :
    ∃ w', w.reset = (w', none) ∧ BasicSound w' output ∧ w'.firmware.live = false := by
  by_cases hlive : w.firmware.live = true
  · obtain rfl := hmay hlive
    obtain ⟨h', hwrite, hport⟩ := h.port.write false
    rw [BasicFirmware.live] at hlive
    rw [BasicWorld.reset, if_pos hlive, hwrite]
    exact ⟨_, rfl, ⟨hport, h.positive⟩, by simp [BasicFirmware.live]⟩
  · rw [BasicFirmware.live] at hlive
    rw [BasicWorld.reset, if_neg hlive]
    exact ⟨_, rfl, ⟨h.port, h.positive⟩, by simp [BasicFirmware.live]⟩

theorem reset_input (h : BasicSound w false) (hlive : w.firmware.live = true) :
    w.reset.2 ≠ none := by
  obtain ⟨e, hwrite⟩ := h.port.write_input false
  rw [BasicFirmware.live] at hlive
  rw [BasicWorld.reset, if_pos hlive, hwrite]
  exact Option.some_ne_none e

theorem toNat_counter (h : BasicSound w output) :
    (w.firmware.cycleCounter + 1).toNat = w.firmware.cycleCounter.toNat + 1 := by
  have hbelow := UInt64.lt_iff_toNat_lt.1 h.below
  have hlt := w.firmware.toggleInterval.toNat_lt
  rw [UInt64.toNat_add, UInt64.toNat_one]
  omega

theorem update_of_stopped (hlive : w.firmware.live = false) : w.update = (w, none) := by
  have hnot : (!w.firmware.initialized || w.firmware.isShutdown) = true := by
    simp [w.firmware.not_live, hlive]
  rw [BasicWorld.update, if_pos hnot]

theorem update_counts (h : BasicSound w output) (hlive : w.firmware.live = true)
    (hcount : w.firmware.cycleCounter.toNat + 1 < w.firmware.toggleInterval.toNat) :
    ∃ w', w.update = (w', none) ∧ BasicSound w' output ∧ w'.firmware.live = true ∧
      w'.firmware.toggleInterval = w.firmware.toggleInterval ∧
      w'.firmware.cycleCounter.toNat = w.firmware.cycleCounter.toNat + 1 := by
  have hnot : ¬ (!w.firmware.initialized || w.firmware.isShutdown) = true := by
    simp [w.firmware.not_live, hlive]
  have hle : ¬ w.firmware.toggleInterval ≤ w.firmware.cycleCounter + 1 := by
    rw [UInt64.le_iff_toNat_le, h.toNat_counter]
    omega
  rw [BasicWorld.update, if_neg hnot]
  dsimp only
  rw [if_neg hle]
  exact ⟨_, rfl, ⟨h.port, UInt64.not_le.1 hle⟩, hlive, rfl, h.toNat_counter⟩

theorem update_toggles (h : BasicSound w true) (hlive : w.firmware.live = true)
    (hcount : w.firmware.toggleInterval.toNat ≤ w.firmware.cycleCounter.toNat + 1) :
    ∃ w', w.update = (w', none) ∧ BasicSound w' true := by
  have hnot : ¬ (!w.firmware.initialized || w.firmware.isShutdown) = true := by
    simp [w.firmware.not_live, hlive]
  have hle : w.firmware.toggleInterval ≤ w.firmware.cycleCounter + 1 := by
    rw [UInt64.le_iff_toNat_le, h.toNat_counter]
    exact hcount
  obtain ⟨h', htoggle, hport⟩ := h.port.toggle
  rw [BasicWorld.update, if_neg hnot]
  dsimp only
  rw [if_pos hle, htoggle]
  exact ⟨_, rfl, hport, h.positive⟩

theorem update_input (h : BasicSound w false) (hlive : w.firmware.live = true)
    (hcount : w.firmware.toggleInterval.toNat ≤ w.firmware.cycleCounter.toNat + 1) :
    w.update.2 ≠ none := by
  have hnot : ¬ (!w.firmware.initialized || w.firmware.isShutdown) = true := by
    simp [w.firmware.not_live, hlive]
  have hle : w.firmware.toggleInterval ≤ w.firmware.cycleCounter + 1 := by
    rw [UInt64.le_iff_toNat_le, h.toNat_counter]
    exact hcount
  obtain ⟨e, htoggle⟩ := h.port.toggle_input
  rw [BasicWorld.update, if_neg hnot]
  dsimp only
  rw [if_pos hle, htoggle]
  exact Option.some_ne_none e

end BasicSound

/-! ### The blinking firmware -/

/-- The timer of the firmware is attached, and at rest while the pin of a live firmware is an
input. -/
structure BlinkSound {T H : Type} (w : BlinkWorld T H) (r : T) (output : Bool) : Prop where
  port : Port w.gpioHAL w.firmware.pin output
  timer : w.timerHAL.timer = some r
  attached : r ∈ w.board.timers
  initial : SameInitial Timer.new.register (w.board.timer r).register
  lines : LinesExist w.board
  positive : w.firmware.compareValue ≠ 0
  rest : w.firmware.live → output = true ∨ (w.board.timer r).AtRest

namespace BlinkSound

variable {T H : Type} {w : BlinkWorld T H} {r : T} {output : Bool}

theorem of_kept (h : BlinkSound w r output) {w' : BlinkWorld T H} {output' : Bool}
    (hboard : Kept w.board w'.board) (hport : Port w'.gpioHAL w'.firmware.pin output')
    (htimer : w'.timerHAL = w.timerHAL)
    (hcompare : w'.firmware.compareValue = w.firmware.compareValue)
    (hrest : w'.firmware.live → output' = true ∨ (w'.board.timer r).AtRest) :
    BlinkSound w' r output' where
  port := hport
  timer := htimer ▸ h.timer
  attached := hboard.timers ▸ h.attached
  initial := h.initial.trans (hboard.initial r)
  lines := hboard.lines h.lines
  positive := hcompare ▸ h.positive
  rest := hrest

variable [DecidableEq T]

theorem initialise (h : BlinkSound w r output) :
    ∃ w', w.initialise = (w', none) ∧ BlinkSound w' r true := by
  obtain ⟨h₁, hconfigure, hport₁⟩ := h.port.configureOutput
  obtain ⟨h₂, hwrite, hport₂⟩ := hport₁.write false
  simp only [BlinkWorld.initialise, hconfigure, hwrite]
  refine ⟨_, rfl, h.of_kept ?_ hport₂ rfl rfl fun _ => .inl rfl⟩
  exact ((w.timerHAL.kept_stop _).trans (w.timerHAL.kept_reset _)).trans
    ((w.timerHAL.kept_setCompare _ _).trans (w.timerHAL.kept_start _))

theorem halt (h : BlinkSound w r true) :
    ∃ w', w.halt = (w', none) ∧ BlinkSound w' r true ∧ w'.firmware = w.firmware := by
  obtain ⟨h', hwrite, hport⟩ := h.port.write false
  simp only [BlinkWorld.halt, hwrite]
  exact ⟨_, rfl, h.of_kept (w.timerHAL.kept_stop _) hport rfl rfl fun _ => .inl rfl, rfl⟩

theorem halt_input (h : BlinkSound w r false) : ∃ w' e, w.halt = (w', some e) := by
  obtain ⟨e, hwrite⟩ := h.port.write_input false
  simp only [BlinkWorld.halt, hwrite]
  exact ⟨_, e, rfl⟩

theorem shutdown (h : BlinkSound w r output) (hmay : w.firmware.live → output = true) :
    ∃ w', w.shutdown = (w', none) ∧ BlinkSound w' r output ∧ w'.firmware.live = false := by
  by_cases hlive : w.firmware.live = true
  · obtain rfl := hmay hlive
    obtain ⟨w', hhalt, hsound, hfirmware⟩ := h.halt
    rw [TimerBlinkFirmware.live] at hlive
    rw [BlinkWorld.shutdown, if_pos hlive, hhalt]
    exact ⟨_, rfl, hsound.of_kept (.refl _) hsound.port rfl rfl fun _ => .inl rfl,
      by simp [TimerBlinkFirmware.live]⟩
  · have hnot := hlive
    rw [TimerBlinkFirmware.live] at hnot
    rw [BlinkWorld.shutdown, if_neg hnot]
    exact ⟨w, rfl, h, by simpa using hlive⟩

theorem shutdown_input (h : BlinkSound w r false) (hlive : w.firmware.live = true) :
    w.shutdown.2 ≠ none := by
  obtain ⟨w', e, hhalt⟩ := h.halt_input
  rw [TimerBlinkFirmware.live] at hlive
  rw [BlinkWorld.shutdown, if_pos hlive, hhalt]
  exact Option.some_ne_none e

theorem reset (h : BlinkSound w r output) (hmay : w.firmware.live → output = true) :
    ∃ w', w.reset = (w', none) ∧ BlinkSound w' r output ∧ w'.firmware.live = false := by
  have hdead : ∀ f : TimerBlinkFirmware, TimerBlinkFirmware.live { f with
      initialized := false, isShutdown := false, toggleCount := 0 } = false := fun _ => rfl
  by_cases hlive : w.firmware.live = true
  · obtain rfl := hmay hlive
    obtain ⟨w', hhalt, hsound, -⟩ := h.halt
    rw [TimerBlinkFirmware.live] at hlive
    rw [BlinkWorld.reset, if_pos hlive, hhalt]
    exact ⟨_, rfl, hsound.of_kept (.refl _) hsound.port rfl rfl fun _ => .inl rfl, hdead _⟩
  · rw [TimerBlinkFirmware.live] at hlive
    rw [BlinkWorld.reset, if_neg hlive]
    refine ⟨_, rfl, h.of_kept (.refl _) h.port rfl rfl ?_, hdead _⟩
    intro hlive'
    rw [hdead] at hlive'
    exact absurd hlive' Bool.false_ne_true

theorem reset_input (h : BlinkSound w r false) (hlive : w.firmware.live = true) :
    w.reset.2 ≠ none := by
  obtain ⟨w', e, hhalt⟩ := h.halt_input
  rw [TimerBlinkFirmware.live] at hlive
  rw [BlinkWorld.reset, if_pos hlive, hhalt]
  exact Option.some_ne_none e

/-- An update never throws: there is no match while the pin is an input. -/
theorem update (h : BlinkSound w r output) :
    ∃ w', w.update = (w', none) ∧ BlinkSound w' r output := by
  by_cases hlive : w.firmware.live = true
  · have hnot : ¬ (!w.firmware.initialized || w.firmware.isShutdown) = true := by
      simp [w.firmware.not_live, hlive]
    rw [BlinkWorld.update, if_neg hnot]
    split_ifs with hmatch
    · rcases h.rest hlive with rfl | hrest
      · obtain ⟨h', htoggle, hport⟩ := h.port.toggle
        rw [htoggle]
        refine ⟨_, rfl, h.of_kept ?_ hport rfl rfl fun _ => .inl rfl⟩
        exact (w.timerHAL.kept_reset _).trans (w.timerHAL.kept_start _)
      · exfalso
        simp only [TimerHAL.hasMatch, TimerHAL.counter, h.timer, Option.elim_some, hrest.hasMatch,
          hrest.counter, Bool.false_eq_true, false_or] at hmatch
        exact h.positive (UInt32.le_zero_iff.1 hmatch)
    · exact ⟨w, rfl, h⟩
  · have hnot : (!w.firmware.initialized || w.firmware.isShutdown) = true := by
      simp [w.firmware.not_live, hlive]
    rw [BlinkWorld.update, if_pos hnot]
    exact ⟨w, rfl, h⟩

end BlinkSound

/-! ### One of them -/

namespace SampleWorld

variable {T H : Type} (w : SampleWorld T H)

/-- The pin of the firmware is an output. -/
def pinOut : Bool := w.gpioHAL.gpio.any (·.isOutputPin w.firmware.pin)

/-- A live firmware has an output pin, so it can be shut down or reset. -/
def MayHalt : Prop := w.firmware.live → w.pinOut

/-- The basic firmware has an output pin if it toggles it within `n` updates. -/
def MayStep (n : ℕ) : Prop :=
  match w.firmware with
  | .basic f => f.live → f.toggleInterval.toNat ≤ f.cycleCounter.toNat + n → w.pinOut
  | .timerBlink _ => True

variable {w} in
theorem MayStep.anti {m n : ℕ} (h : w.MayStep n) (hle : m ≤ n) : w.MayStep m := by
  unfold MayStep at h ⊢
  split
  · next f hf =>
    rw [hf] at h
    exact fun hlive hdue => h hlive (hdue.trans (Nat.add_le_add_left hle _))
  · trivial

/-- The firmware is sound, and its pin is an output or not. -/
inductive Sound : SampleWorld T H → Bool → Prop
  | basic {board gpioHAL timerHAL f output} (h : BasicSound ⟨gpioHAL, f⟩ output)
    (hlines : LinesExist board) : Sound ⟨board, gpioHAL, timerHAL, .basic f⟩ output
  | timerBlink {board gpioHAL timerHAL f r output}
    (h : BlinkSound ⟨board, gpioHAL, timerHAL, f⟩ r output) :
    Sound ⟨board, gpioHAL, timerHAL, .timerBlink f⟩ output

namespace Sound

variable {w : SampleWorld T H} {output : Bool}

theorem port (h : Sound w output) : Port w.gpioHAL w.firmware.pin output := by
  cases h with
  | basic h _ => exact h.port
  | timerBlink h => exact h.port

theorem lines (h : Sound w output) : LinesExist w.board := by
  cases h with
  | basic _ hlines => exact hlines
  | timerBlink h => exact h.lines

theorem pinOut_eq (h : Sound w output) : w.pinOut = output := by
  obtain ⟨g, hg, hout, -⟩ := h.port.port
  simpa [pinOut, hg] using hout

theorem mayHalt_iff (h : Sound w output) : w.MayHalt ↔ (w.firmware.live → output = true) := by
  rw [MayHalt, h.pinOut_eq]

theorem mayStep_zero (h : Sound w output) : w.MayStep 0 := by
  cases h with
  | basic h _ =>
    intro _ hdue
    have hbelow := UInt64.lt_iff_toNat_lt.1 h.below
    exact absurd hdue (Nat.not_le.2 hbelow)
  | timerBlink h => trivial

theorem mayStep_of_output (h : Sound w true) (n : ℕ) : w.MayStep n := by
  unfold MayStep
  split
  · exact fun _ _ => h.pinOut_eq
  · trivial

variable [DecidableEq T]

theorem initialise (h : Sound w output) :
    (w.call .initialise).2 = none ∧ Sound (w.call .initialise).1 true := by
  cases h with
  | basic h hlines =>
    obtain ⟨w', heq, hsound⟩ := h.initialise
    simp only [call, BasicWorld.call, heq]
    exact ⟨trivial, .basic hsound hlines⟩
  | timerBlink h =>
    obtain ⟨w', heq, hsound⟩ := h.initialise
    simp only [call, BlinkWorld.call, heq]
    exact ⟨trivial, .timerBlink hsound⟩

/-- What `shutdown` and `reset` have in common. -/
theorem halt (h : Sound w output) {c : Call} (hc : c = .shutdown ∨ c = .reset) (hmay : w.MayHalt) :
    (w.call c).2 = none ∧ Sound (w.call c).1 output ∧ (w.call c).1.firmware.live = false := by
  have hmay := h.mayHalt_iff.1 hmay
  cases h with
  | basic h hlines =>
    obtain ⟨w', heq, hsound, hdead⟩ : ∃ w', BasicWorld.call _ c = (w', none) ∧
        BasicSound w' output ∧ w'.firmware.live = false := by
      rcases hc with rfl | rfl
      · exact h.shutdown hmay
      · exact h.reset hmay
    simp only [call, heq]
    exact ⟨trivial, .basic hsound hlines, hdead⟩
  | @timerBlink board gpioHAL timerHAL f r output h =>
    obtain ⟨w', heq, hsound, hdead⟩ : ∃ w', BlinkWorld.call ⟨board, gpioHAL, timerHAL, f⟩ c =
        (w', none) ∧ BlinkSound w' r output ∧ w'.firmware.live = false := by
      rcases hc with rfl | rfl
      · exact h.shutdown hmay
      · exact h.reset hmay
    simp only [call, heq]
    exact ⟨trivial, .timerBlink hsound, hdead⟩

theorem halt_throws (h : Sound w output) {c : Call} (hc : c = .shutdown ∨ c = .reset)
    (hmay : ¬ w.MayHalt) : (w.call c).2 ≠ none := by
  rw [h.mayHalt_iff, Classical.not_imp, Bool.not_eq_true] at hmay
  obtain ⟨hlive, rfl⟩ := hmay
  cases h with
  | basic h _ =>
    rcases hc with rfl | rfl
    · exact h.shutdown_input hlive
    · exact h.reset_input hlive
  | timerBlink h =>
    rcases hc with rfl | rfl
    · exact h.shutdown_input hlive
    · exact h.reset_input hlive

/-- An update that does not throw brings the next toggle closer by one update. -/
theorem update (h : Sound w output) (hmay : w.MayStep 1) :
    (w.call .update).2 = none ∧ Sound (w.call .update).1 output ∧
      ∀ n, (w.call .update).1.MayStep n ↔ w.MayStep (n + 1) := by
  have hpin := h.pinOut_eq
  cases h with
  | @basic board gpioHAL timerHAL f output h hlines =>
    have hmay : f.live → f.toggleInterval.toNat ≤ f.cycleCounter.toNat + 1 → output = true :=
      hpin ▸ hmay
    by_cases hlive : f.live = true
    · by_cases hcount : f.cycleCounter.toNat + 1 < f.toggleInterval.toNat
      · obtain ⟨w', heq, hsound, hlive', hinterval, hcounter⟩ := h.update_counts hlive hcount
        have hnext : Sound (⟨board, w'.gpioHAL, timerHAL, .basic w'.firmware⟩ : SampleWorld T H)
            output := .basic hsound hlines
        simp only [call, BasicWorld.call, heq]
        refine ⟨trivial, hnext, ?_⟩
        intro n
        simp only [MayStep, hpin, hnext.pinOut_eq, hlive, hlive', hinterval, hcounter]
        rw [Nat.add_right_comm, Nat.add_assoc]
      · obtain rfl := hmay hlive (Nat.not_lt.1 hcount)
        obtain ⟨w', heq, hsound⟩ := h.update_toggles hlive (Nat.not_lt.1 hcount)
        have hnext : Sound (⟨board, w'.gpioHAL, timerHAL, .basic w'.firmware⟩ : SampleWorld T H)
            true := .basic hsound hlines
        simp only [call, BasicWorld.call, heq]
        exact ⟨trivial, hnext, fun n => iff_of_true (hnext.mayStep_of_output n)
          ((Sound.basic h hlines).mayStep_of_output _)⟩
    · have hlive := Bool.eq_false_iff.2 hlive
      simp only [call, BasicWorld.call, BasicSound.update_of_stopped (w := ⟨gpioHAL, f⟩) hlive]
      refine ⟨trivial, .basic h hlines, ?_⟩
      intro n
      simp [MayStep, hlive]
  | timerBlink h =>
    obtain ⟨w', heq, hsound⟩ := h.update
    simp only [call, BlinkWorld.call, heq]
    exact ⟨trivial, .timerBlink hsound, fun n => Iff.rfl⟩

theorem update_throws (h : Sound w output) (hmay : ¬ w.MayStep 1) : (w.call .update).2 ≠ none := by
  have hpin := h.pinOut_eq
  cases h with
  | @basic board gpioHAL timerHAL f output h hlines =>
    have hmay : ¬ (f.live → f.toggleInterval.toNat ≤ f.cycleCounter.toNat + 1 → output = true) :=
      hpin ▸ hmay
    rw [Classical.not_imp, Classical.not_imp, Bool.not_eq_true] at hmay
    obtain ⟨hlive, hcount, rfl⟩ := hmay
    exact h.update_input hlive hcount
  | timerBlink h => exact absurd trivial hmay

theorem resetBus (h : Sound w output) : Sound w.resetBus false := by
  cases h with
  | basic h hlines => exact .basic ⟨h.port.reset, h.below⟩ ((Kept.reset _).lines hlines)
  | timerBlink h =>
    exact .timerBlink (h.of_kept (.reset _) h.port.reset rfl rfl
      fun _ => .inr (atRest_reset h.attached h.initial))

theorem tick (h : Sound w output) {n : UInt64} :
    let stepped := Cpu.CPU.step ⟨.on, n, w.board⟩
    stepped.2.1 = none ∧ Sound { w with board := stepped.1.bus } output := by
  obtain ⟨hok, -, hquiet⟩ := Quiet.step (c := ⟨.on, n, w.board⟩) rfl h.lines
  refine ⟨hok, ?_⟩
  cases h with
  | basic h hlines => exact .basic h (hquiet.lines hlines)
  | timerBlink h =>
    exact .timerBlink (h.of_kept hquiet.toKept h.port rfl rfl
      fun hlive => (h.rest hlive).imp id (hquiet.rest _))

end Sound

end SampleWorld

end Firmware

end EFS
