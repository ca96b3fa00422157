import EFS.Drivers.Operations
import EFS.LTS.Histories

/-!
# The ADC and its registers

`ADCController` keeps the resolution and the last sample twice, in members and in the registers
RES and DATA, and STATUS says again what CTRL says.  A program on the bus can write to the four
registers; the controller takes notice of CTRL only, and does not bring STATUS up to date.

* `truthful_iff_allowed` : the registers show the state of the controller throughout a run iff each
  write of the program agrees with it.
  Whatever is written, the samples fit the resolution.
-/

namespace EFS

namespace Drivers

namespace ADCController

open EFS.Mmio

/-- A call of the controller, or a write to one of its registers on the bus. -/
inductive Action
  | call (o : Op)
  | write (r : ADCRegister) (value : UInt32)

section

variable (c : ADCController)

/-- The converter after a call or after a write to one of its registers. -/
def act : Action → ADCController
  | .call o => c.perform o
  | .write r value => c.setRegister ((c.register r).write value) r

/-- What STATUS reads after `updateStatusRegister`. -/
def statusValue : UInt32 := if c.enabled then statusEnabledBit ||| statusCompleteBit else 0

/-- The registers show the state of the controller. -/
structure Truthful : Prop where
  status : c.statusRegister.read = c.statusValue
  res : c.resRegister.read = c.resolutionBits.toUInt32
  data : c.dataRegister.read = c.lastSample

/-- A write that agrees with the controller; the other bits of CTRL mean nothing. -/
def Allows : Action → Prop
  | .call _ => True
  | .write .control value => (value &&& ctrlEnableBit ≠ 0 ↔ c.enabled = true)
  | .write .status value => value = c.statusValue
  | .write .res value => value = c.resolutionBits.toUInt32
  | .write .data value => value = c.lastSample

end

/-- The runs of a converter under calls and register writes. -/
def actions : LTS ADCController Action where
  step c a c' := c' = c.act a

/-- A resolution that the controller accepts. -/
def ValidResolution (bits : UInt8) : Prop := bits = 8 ∨ bits = 10 ∨ bits = 12

/-- What the constructor makes of arguments that it accepts. -/
def fresh (baseAddress : Address) (bits : UInt8) (voltage : Float) (count : UInt64) :
    ADCController :=
  updateStatusRegister ⟨baseAddress, bits, voltage, List.replicate count.toNat 0, .new 0, .new 0,
    .new bits.toUInt32, .new 0, 0⟩

variable {c c' : ADCController} {as : List Action} {n : ℕ}

/-! ### Calls -/

/-- What a call does; one that throws changes nothing. -/
inductive Performed (c : ADCController) : Op → ADCController → Prop
  | throws (o : Op) : Performed c o c
  | enable : Performed c .enable c.enable
  | disable : Performed c .disable c.disable
  | setResolution {bits : UInt8} : ValidResolution bits → Performed c (.setResolution bits)
      { c with resolutionBits := bits, resRegister := c.resRegister.write bits.toUInt32 }
  | setReferenceVoltage {voltage : Float} : Performed c (.setReferenceVoltage voltage)
      { c with referenceVoltage := voltage }
  | setAnalogInput {channel : UInt64} {voltage : Float} :
      Performed c (.setAnalogInput channel voltage)
        { c with channels := c.channels.set channel.toNat voltage }
  | sample {channel : UInt64} {vin : Float} : Performed c (.sample channel)
      { c with
        lastSample := c.convert vin
        dataRegister := c.dataRegister.write (c.convert vin) }.updateStatusRegister
  | reset : Performed c .reset c.reset

theorem performed (c : ADCController) (o : Op) : c.Performed o (c.perform o) := by
  cases o with
  | enable => exact .enable
  | disable => exact .disable
  | reset => exact .reset
  | setResolution bits =>
    rw [perform, setResolution]
    split_ifs with h
    · exact .throws _
    · refine .setResolution ?_
      rw [ValidResolution]
      tauto
  | setReferenceVoltage voltage =>
    rw [perform, setReferenceVoltage]
    split_ifs
    · exact .throws _
    · exact .setReferenceVoltage
  | setAnalogInput channel voltage =>
    rw [perform, setAnalogInput]
    split_ifs
    · exact .throws _
    · exact .throws _
    · exact .setAnalogInput
  | sample channel =>
    rw [perform, ADCController.sample]
    split_ifs
    · cases c.channels[channel.toNat]? with
      | none => exact .throws _
      | some vin => exact .sample
    · exact .throws _

/-! ### The registers -/

/-- The registers show the state, and DATA does so after a reset as well. -/
structure Sound (c : ADCController) : Prop where
  truthful : c.Truthful
  reset : c.dataRegister.initialValue = 0

theorem Sound.performed (h : c.Sound) {o : Op} (hperformed : c.Performed o c') : c'.Sound := by
  obtain ⟨⟨hstatus, hres, hdata⟩, hreset⟩ := h
  cases hperformed with
  | throws => exact ⟨⟨hstatus, hres, hdata⟩, hreset⟩
  | enable | disable => exact ⟨⟨rfl, hres, hdata⟩, hreset⟩
  | setResolution => exact ⟨⟨hstatus, rfl, hdata⟩, hreset⟩
  | setReferenceVoltage | setAnalogInput => exact ⟨⟨hstatus, hres, hdata⟩, hreset⟩
  | sample => exact ⟨⟨rfl, hres, rfl⟩, hreset⟩
  | reset => exact ⟨⟨rfl, rfl, hreset⟩, hreset⟩

theorem Sound.act (h : c.Sound) {a : Action} (hallows : c.Allows a) : (c.act a).Sound := by
  obtain ⟨⟨hstatus, hres, hdata⟩, hreset⟩ := h
  cases a with
  | call o => exact Sound.performed ⟨⟨hstatus, hres, hdata⟩, hreset⟩ (c.performed o)
  | write r value =>
    cases r with
    | control =>
      have henabled : (c.act (.write .control value)).enabled = c.enabled := by
        exact Bool.eq_iff_iff.2 (decide_eq_true_iff.trans hallows)
      refine ⟨⟨hstatus.trans ?_, hres, hdata⟩, hreset⟩
      rw [statusValue, statusValue, henabled]
    | status => exact ⟨⟨hallows, hres, hdata⟩, hreset⟩
    | res => exact ⟨⟨hstatus, hallows, hdata⟩, hreset⟩
    | data => exact ⟨⟨hstatus, hres, hallows⟩, hreset⟩

/-- A write to CTRL that switches the controller leaves STATUS behind. -/
theorem Truthful.of_act (h : c.Truthful) {a : Action} (hafter : (c.act a).Truthful) :
    c.Allows a := by
  cases a with
  | call o => trivial
  | write r value =>
    cases r with
    | control =>
      have hstatus : (c.act (.write .control value)).statusValue = c.statusValue :=
        hafter.status.symm.trans h.status
      have henabled : (c.act (.write .control value)).enabled = true ↔ c.enabled = true := by
        rw [statusValue, statusValue] at hstatus
        split_ifs at hstatus with h₁ h₂ h₂
        · exact iff_of_true h₁ h₂
        · exact absurd hstatus (by decide)
        · exact absurd hstatus (by decide)
        · exact iff_of_false h₁ h₂
      exact decide_eq_true_iff.symm.trans henabled
    | status => exact hafter.status
    | res => exact hafter.res
    | data => exact hafter.data

/-! ### The samples -/

theorem convert_le (c : ADCController) (vin : Float) :
    c.convert vin ≤ (1 <<< c.resolutionBits.toUInt32) - 1 := by
  simp only [convert]
  split_ifs with _ _ hlt
  · exact UInt32.zero_le
  · exact UInt32.le_refl _
  · exact UInt32.le_refl _
  · exact UInt32.not_lt.1 hlt

theorem convert_lt (h : ValidResolution c.resolutionBits) (vin : Float) :
    (c.convert vin).toNat < 2 ^ c.resolutionBits.toNat := by
  have hle := UInt32.le_iff_toNat_le.1 (c.convert_le vin)
  obtain h | h | h := h <;> rw [h] at hle ⊢ <;> exact Nat.lt_of_le_of_lt hle (by decide)

/-- What no call and no write changes. -/
structure Kept (n : ℕ) (c : ADCController) : Prop where
  resolution : ValidResolution c.resolutionBits
  channels : c.channels.length = n

theorem Kept.performed (h : Kept n c) {o : Op} (hperformed : c.Performed o c') : Kept n c' := by
  obtain ⟨hbits, hchannels⟩ := h
  cases hperformed with
  | setResolution hvalid => exact ⟨hvalid, hchannels⟩
  | setAnalogInput => exact ⟨hbits, (List.length_set ..).trans hchannels⟩
  | reset => exact ⟨.inr (.inr rfl), (List.length_replicate ..).trans hchannels⟩
  | throws | enable | disable | setReferenceVoltage | sample => exact ⟨hbits, hchannels⟩

theorem Kept.act (h : Kept n c) (a : Action) : Kept n (c.act a) := by
  cases a with
  | call o => exact h.performed (c.performed o)
  | write r value => cases r <;> exact ⟨h.resolution, h.channels⟩

/-! ### Runs -/

variable {baseAddress : Address} {bits : UInt8} {voltage : Float} {count : UInt64}

theorem eq_fresh_of_new (hnew : ADCController.new baseAddress bits voltage count = .ok c) :
    ValidResolution bits ∧ c = fresh baseAddress bits voltage count := by
  rw [ADCController.new] at hnew
  split_ifs at hnew with _ hbits
  refine ⟨?_, (Except.ok.inj hnew).symm⟩
  rw [ValidResolution]
  tauto

theorem sound_fresh : (fresh baseAddress bits voltage count).Sound := ⟨⟨rfl, rfl, rfl⟩, rfl⟩

theorem Kept.of_run (hbits : ValidResolution bits)
    (hrun : actions.Run (fresh baseAddress bits voltage count) as c) : Kept count.toNat c := by
  refine hrun.invariant (I := Kept count.toNat) ⟨hbits, List.length_replicate ..⟩ ?_
  rintro d a - hd rfl
  exact hd.act a

theorem Kept.sample_iff (h : Kept count.toNat c) (channel : UInt64) :
    (∃ r, c.sample channel = .ok r) ↔ c.enabled = true ∧ channel < count := by
  have hchannel : channel < count ↔ ∃ vin, c.channels[channel.toNat]? = some vin := by
    rw [UInt64.lt_iff_toNat_lt, ← h.channels]
    constructor
    · intro h
      exact ⟨_, List.getElem?_eq_getElem h⟩
    · rintro ⟨vin, hvin⟩
      exact (List.getElem?_eq_some_iff.1 hvin).1
  rw [hchannel, ADCController.sample]
  cases c.enabled with
  | false => simp
  | true => cases c.channels[channel.toNat]? <;> simp

theorem Kept.sample_lt (h : Kept n c) {channel : UInt64} {raw : UInt32}
    (hsample : c.sample channel = .ok (raw, c')) :
    raw.toNat < 2 ^ c.resolutionBits.toNat ∧ c'.dataRegister.read = raw := by
  rw [ADCController.sample] at hsample
  split_ifs at hsample
  cases hvin : c.channels[channel.toNat]? with
  | none =>
    rw [hvin] at hsample
    cases hsample
  | some vin =>
    rw [hvin] at hsample
    obtain ⟨rfl, rfl⟩ := Prod.mk.inj (Except.ok.inj hsample)
    exact ⟨convert_lt h.resolution vin, rfl⟩

/-- **The registers of the ADC.**  They show the state of the controller throughout a run iff each
write of the program agrees with it.  Whatever is written, a sample succeeds iff the controller is
enabled and has the channel, and then its value fits the resolution and is in DATA. -/
theorem truthful_iff_allowed (hbits : ValidResolution bits) (as : List Action) :
    (actions.Throughout Truthful (fresh baseAddress bits voltage count) as ↔
      actions.Allowed Allows (fresh baseAddress bits voltage count) as) ∧
    ∀ c, actions.Run (fresh baseAddress bits voltage count) as c → ∀ channel,
      ((∃ r, c.sample channel = .ok r) ↔ c.enabled = true ∧ channel < count) ∧
      ∀ raw c', c.sample channel = .ok (raw, c') →
        raw.toNat < 2 ^ c.resolutionBits.toNat ∧ c'.dataRegister.read = raw := by
  constructor
  · refine LTS.throughout_iff_allowed (fun c a => ⟨c.act a, rfl⟩) sound_fresh
      (fun _ h => h.truthful) ?_ ?_
    · rintro d a - hd rfl hallows
      exact hd.act hallows
    · rintro d a - hd rfl hallows hafter
      exact hallows (hd.truthful.of_act hafter)
  · intro c hrun channel
    have hkept : Kept count.toNat c := .of_run hbits hrun
    exact ⟨hkept.sample_iff channel, fun _ _ => hkept.sample_lt⟩

/-- A program may write CTRL once the controller is enabled; if it enables the controller through
CTRL itself, STATUS still reads 0. -/
theorem truthful_enabled :
    actions.Throughout Truthful (fresh 0 12 3.3 2) [.call .enable, .write .control 3] ∧
      ¬ actions.Throughout Truthful (fresh 0 12 3.3 2) [.write .control 3] := by
  have hiff (as : List Action) : actions.Throughout Truthful (fresh 0 12 3.3 2) as ↔
      actions.Allowed Allows (fresh 0 12 3.3 2) as :=
    (truthful_iff_allowed (.inr (.inr rfl)) as).1
  constructor
  · refine (hiff _).2 (.cons trivial ?_)
    rintro - rfl
    refine .cons ?_ fun _ _ => .nil
    exact iff_of_true (by decide) rfl
  · intro h
    have hallows : (3 : UInt32) &&& ctrlEnableBit ≠ 0 ↔ (fresh 0 12 3.3 2).enabled = true :=
      (hiff _).1 h [] _ _ (List.prefix_refl _) (.nil _)
    exact Bool.false_ne_true (hallows.1 (by decide))

end ADCController

end Drivers

end EFS
