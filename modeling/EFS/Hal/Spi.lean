import EFS.Drivers.SpiResponses

/-!
# Configuring the SPI controller through the HAL

`SPIHAL::configure` sets the mode and then the clock divider.  If the divider is refused, the mode
has been set all the same.
-/

namespace EFS

/-- The bits inside and outside of `mask` make up the word. -/
theorem Mmio.and_not_or_and_mask (v mask : UInt32) : v &&& ~~~mask ||| v &&& mask = v := by
  refine UInt32.toBitVec_inj.1 (BitVec.eq_of_getElem_eq ?_)
  intro i hi
  cases hv : v.toBitVec[i] <;> cases hm : mask.toBitVec[i] <;> simp [hv, hm]

namespace Drivers

open EFS.Mmio

namespace SPIController

/-! ### The mode bits of the control register -/

/-- The mode bits that `setMode` writes. -/
def modeBits (mode : UInt8) : UInt32 := (mode &&& 3).toUInt32 <<< 1

theorem mode_cases {mode : UInt8} (h : ¬ 3 < mode) : mode = 0 ∨ mode = 1 ∨ mode = 2 ∨ mode = 3 := by
  have hle : mode.toNat ≤ 3 := UInt8.le_iff_toNat_le.1 (UInt8.not_lt.1 h)
  have hcases : mode.toNat = 0 ∨ mode.toNat = 1 ∨ mode.toNat = 2 ∨ mode.toNat = 3 := by omega
  exact hcases.imp UInt8.toNat_inj.1 (.imp UInt8.toNat_inj.1 (.imp UInt8.toNat_inj.1
    UInt8.toNat_inj.1))

/-- The mode bits of a control register are those of its mode. -/
theorem modeBits_mode (c : SPIController) :
    modeBits c.mode = c.controlRegister.read &&& ctrlModeMask := by
  have hle : (c.controlRegister.read &&& ctrlModeMask).toNat ≤ 6 := Nat.and_le_right
  have hmask : c.controlRegister.read &&& ctrlModeMask &&& ctrlModeMask =
      c.controlRegister.read &&& ctrlModeMask := by
    rw [UInt32.and_assoc, UInt32.and_self]
  unfold mode
  generalize c.controlRegister.read &&& ctrlModeMask = bits at hle hmask ⊢
  obtain ⟨n, hn⟩ : ∃ n, bits.toNat = n := ⟨_, rfl⟩
  obtain rfl : bits = .ofNat n := by rw [← hn, UInt32.ofNat_toNat]
  rw [hn] at hle
  interval_cases n <;> revert hmask <;> decide

variable {c : SPIController} {mode : UInt8}

theorem control_withMode_and_mask (h : ¬ 3 < mode) :
    (c.withMode mode).controlRegister.read &&& ctrlModeMask = modeBits mode := by
  have hbits : modeBits mode &&& ctrlModeMask = modeBits mode := by
    rcases mode_cases h with rfl | rfl | rfl | rfl <;> decide
  have hdistrib : (c.controlRegister.read &&& ~~~ctrlModeMask ||| modeBits mode) &&& ctrlModeMask =
      c.controlRegister.read &&& ~~~ctrlModeMask &&& ctrlModeMask |||
        modeBits mode &&& ctrlModeMask := UInt32.toBitVec_inj.1 BitVec.and_or_distrib_right
  exact hdistrib.trans (by rw [and_not_and_mask, hbits, UInt32.zero_or])

theorem mode_withMode (h : ¬ 3 < mode) : (c.withMode mode).mode = mode := by
  rw [SPIController.mode, control_withMode_and_mask h]
  rcases mode_cases h with rfl | rfl | rfl | rfl <;> decide

theorem control_withMode_and_not_mask (h : ¬ 3 < mode) :
    (c.withMode mode).controlRegister.read &&& ~~~ctrlModeMask =
      c.controlRegister.read &&& ~~~ctrlModeMask := by
  have hbits : modeBits mode &&& ~~~ctrlModeMask = 0 := by
    rcases mode_cases h with rfl | rfl | rfl | rfl <;> decide
  exact (or_and_bit hbits).trans (and_not_and_bit (UInt32.and_self))

theorem enabled_withMode (h : ¬ 3 < mode) : (c.withMode mode).enabled = c.enabled := by
  have hbit : ~~~ctrlModeMask &&& ctrlEnableBit = ctrlEnableBit := by decide
  unfold enabled
  rw [← and_not_and_bit (v := c.controlRegister.read) hbit,
    ← and_not_and_bit (v := (c.withMode mode).controlRegister.read) hbit,
    control_withMode_and_not_mask h]

theorem controlRegister_withMode_iff (h : ¬ 3 < mode) :
    (c.withMode mode).controlRegister = c.controlRegister ↔ c.mode = mode := by
  constructor
  · intro hsame
    rw [← mode_withMode (c := c) h, SPIController.mode, SPIController.mode, hsame]
  · rintro rfl
    have hvalue : c.controlRegister.read &&& ~~~ctrlModeMask ||| modeBits c.mode =
        c.controlRegister.value := by
      rw [modeBits_mode]
      exact and_not_or_and_mask _ _
    exact congrArg c.controlRegister.write hvalue

end SPIController

end Drivers

namespace Hal

open EFS.Drivers EFS.Mmio

/-- An SPI HAL; of its controller only whether it is attached is kept. -/
structure SPIHAL where
  /-- `m_controller` is not null. -/
  attached : Bool

namespace SPIHAL

/-- `configure`, on the controller that the HAL object points to. -/
def configure (h : SPIHAL) (mode : UInt8) (clockDivider : UInt32) : Method SPIController Unit := do
  Method.throwIf (fun _ => ¬ h.attached) "SPIHAL: unattached driver"
  let _ ← SPIController.body (.setMode mode)
  let _ ← SPIController.body (.setClockDivider clockDivider)
  return

/-- Mode and divider are set, and nothing else has changed. -/
structure Configured (c : SPIController) (mode : UInt8) (clockDivider : UInt32)
    (c' : SPIController) : Prop where
  mode : c'.mode = mode
  clockDivider : c'.clockDivider = clockDivider
  enabled : c'.enabled = c.enabled
  otherBits : c'.controlRegister.read &&& ~~~SPIController.ctrlModeMask =
    c.controlRegister.read &&& ~~~SPIController.ctrlModeMask
  rest : c' = { c with
    controlRegister := c.controlRegister.write c'.controlRegister.read
    clockDivRegister := c.clockDivRegister.write c'.clockDivRegister.read }

/-- `configure` sets both, or it throws and leaves both registers as they were. -/
def ConfiguresAtomically (h : SPIHAL) (c : SPIController) (mode : UInt8) (clockDivider : UInt32) :
    Prop :=
  match (h.configure mode clockDivider).call c with
  | (.ok _, c') => Configured c mode clockDivider c'
  | (.error _, c') =>
    c'.controlRegister = c.controlRegister ∧ c'.clockDivRegister = c.clockDivRegister

variable (h : SPIHAL) (c : SPIController) (mode : UInt8) (clockDivider : UInt32)

theorem call_configure : (h.configure mode clockDivider).call c =
    if ¬ h.attached then (.error "SPIHAL: unattached driver", c)
    else if 3 < mode then (.error "Invalid SPI mode", c)
    else if clockDivider = 0 then (.error "Clock divider cannot be 0", c.withMode mode)
    else (.ok (), { c.withMode mode with
      clockDivRegister := c.clockDivRegister.write clockDivider }) := by
  by_cases hattached : h.attached = true
  · by_cases hmode : 3 < mode
    · simp [configure, SPIController.body, hattached, hmode]
    · by_cases hdivider : clockDivider = 0 <;>
        simp [configure, SPIController.body, hattached, hmode, hdivider,
          SPIController.withMode]
  · simp [configure, hattached]

/-- `configure` is atomic, unless a valid mode other than that of the controller comes with a
divider of 0. -/
theorem configuresAtomically_iff : h.ConfiguresAtomically c mode clockDivider ↔
    (h.attached = true → mode ≤ 3 → clockDivider = 0 → c.mode = mode) := by
  rw [ConfiguresAtomically, call_configure]
  by_cases hattached : h.attached = true
  · rw [if_neg (not_not.2 hattached)]
    by_cases hmode : 3 < mode
    · rw [if_pos hmode]
      exact iff_of_true ⟨rfl, rfl⟩ fun _ hle => absurd hmode (UInt8.not_lt.2 hle)
    · rw [if_neg hmode]
      by_cases hdivider : clockDivider = 0
      · rw [if_pos hdivider]
        show (c.withMode mode).controlRegister = c.controlRegister ∧ _ ↔ _
        rw [SPIController.controlRegister_withMode_iff hmode]
        exact ⟨fun hsame _ _ _ => hsame.1,
          fun hsame => ⟨hsame hattached (UInt8.not_lt.1 hmode) hdivider, rfl⟩⟩
      · rw [if_neg hdivider]
        refine iff_of_true ?_ fun _ _ hzero => absurd hzero hdivider
        exact ⟨SPIController.mode_withMode hmode, rfl, SPIController.enabled_withMode hmode,
          SPIController.control_withMode_and_not_mask hmode, rfl⟩
  · rw [if_pos hattached]
    exact iff_of_true ⟨rfl, rfl⟩ fun htrue => absurd htrue hattached

/-- A new controller in mode 0 is left in mode 1 by a call that throws. -/
theorem not_configuresAtomically_zeroDivider :
    ∃ c, SPIController.new 0x2000 4 0 = .ok c ∧
      ¬ (SPIHAL.mk true).ConfiguresAtomically c 1 0 ∧
      (((SPIHAL.mk true).configure 1 0).call c).2.mode = 1 ∧ c.mode = 0 := by
  refine ⟨_, rfl, ?_, by decide, by decide⟩
  rintro ⟨hcontrol, -⟩
  exact absurd (congrArg Register.value hcontrol) (by decide)

end SPIHAL

end Hal

end EFS
