import EFS.Data.Method
import EFS.Drivers.Operations
import EFS.Kernel.Requests
import EFS.LTS.Histories

/-!
# The pins of the GPIO port

Each pin has a bit in DIR, OUT and IN.  Driving an output pin writes OUT and IN alike, but turning a
pin into an output leaves both as they are.

* `call_body` : the operations, statement by statement, do what `perform` says.
* `bits_perform` : an operation on a pin leaves the bits of the others.
* `readsBack_iff_allowed` : output pins read what they drive throughout a run iff each pin that is
  made an output has the same level in OUT and IN.
-/

namespace EFS

namespace Drivers

open EFS.Mmio EFS.Kernel

namespace GPIO

/-! ### Statement by statement -/

/-- `validatePin()` as a statement. -/
def checkPin (pin : UInt8) : Method GPIO Unit :=
  Method.throwIf (fun _ => maxPins ≤ pin.toNat) ("GPIO pin index out of range: " ++ toString pin)

/-- The body of `writePin`, which `togglePin` calls. -/
def writeBody (pin : UInt8) (state : PinState) : Method GPIO Unit := do
  checkPin pin
  Method.throwIf (fun g => ¬ g.isOutputPin pin)
    ("Cannot write to GPIO pin configured as Input: " ++ toString pin)
  let g ← get
  let out := withPin pin g.outRegister.read state
  let inp := withPin pin g.inRegister.read state
  modify fun g => { g with outRegister := g.outRegister.write out }
  modify fun g => { g with inRegister := g.inRegister.write inp }

/-- The body of `readPin`. -/
def readBody (pin : UInt8) : Method GPIO PinState := do
  checkPin pin
  let g ← get
  return if g.inRegister.read &&& bit pin ≠ 0 then .high else .low

/-- The bodies of the operations. -/
def body : Op → Method GPIO Unit
  | .configurePin pin direction => do
    checkPin pin
    let g ← get
    let state := if direction = .output then PinState.high else .low
    modify fun g' => { g' with
      dirRegister := g'.dirRegister.write (withPin pin g.dirRegister.read state) }
  | .writePin pin state => writeBody pin state
  | .togglePin pin => do
    checkPin pin
    Method.throwIf (fun g => ¬ g.isOutputPin pin)
      ("Cannot toggle GPIO pin configured as Input: " ++ toString pin)
    let current ← readBody pin
    writeBody pin (if current = .high then .low else .high)
  | .setExternalInput pin state => do
    checkPin pin
    Method.throwIf (fun g => g.isOutputPin pin)
      ("Cannot drive external input on output pin: " ++ toString pin)
    let g ← get
    modify fun g' => { g' with
      inRegister := g'.inRegister.write (withPin pin g.inRegister.read state) }
  | .reset => do
    modify fun g => { g with dirRegister := g.dirRegister.reset }
    modify fun g => { g with outRegister := g.outRegister.reset }
    modify fun g => { g with inRegister := g.inRegister.reset }

theorem atomic_writeBody (pin : UInt8) (state : PinState) : (writeBody pin state).Atomic :=
  .after_check Method.observes_throwIf fun _ => .after_check Method.observes_throwIf fun _ =>
    .of_completes fun _ => ⟨_, _, rfl⟩

theorem observes_readBody (pin : UInt8) : (readBody pin).Observes := by
  intro g
  by_cases h : maxPins ≤ pin.toNat <;> simp [readBody, checkPin, h]

theorem atomic_body (o : Op) : (body o).Atomic := by
  cases o with
  | configurePin pin direction =>
    exact .after_check Method.observes_throwIf fun _ => .of_completes fun g => ⟨_, _, rfl⟩
  | writePin pin state => exact atomic_writeBody pin state
  | togglePin pin =>
    exact .after_check Method.observes_throwIf fun _ =>
      .after_check Method.observes_throwIf fun _ =>
        .after_check (observes_readBody pin) fun _ => atomic_writeBody pin _
  | setExternalInput pin state =>
    exact .after_check Method.observes_throwIf fun _ =>
      .after_check Method.observes_throwIf fun _ => .of_completes fun g => ⟨_, _, rfl⟩
  | reset => exact .of_completes fun g => ⟨_, _, rfl⟩

/-- What an operation returns or throws. -/
def returned (g : GPIO) : Op → Except String GPIO
  | .configurePin pin direction => g.configurePin pin direction
  | .writePin pin state => g.writePin pin state
  | .togglePin pin => g.togglePin pin
  | .setExternalInput pin state => g.setExternalInput pin state
  | .reset => .ok g.reset

section

variable (g : GPIO) (pin : UInt8) (state : PinState)

theorem configurePin_eq (direction : PinDirection) : g.configurePin pin direction =
    if maxPins ≤ pin.toNat then .error ("GPIO pin index out of range: " ++ toString pin)
    else .ok { g with
      dirRegister := g.dirRegister.write
        (withPin pin g.dirRegister.read (if direction = .output then .high else .low)) } := by
  unfold configurePin validatePin
  split_ifs <;> rfl

theorem writePin_eq : g.writePin pin state =
    if maxPins ≤ pin.toNat then .error ("GPIO pin index out of range: " ++ toString pin)
    else if ¬ g.isOutputPin pin then
      .error ("Cannot write to GPIO pin configured as Input: " ++ toString pin)
    else .ok { g with
      outRegister := g.outRegister.write (withPin pin g.outRegister.read state)
      inRegister := g.inRegister.write (withPin pin g.inRegister.read state) } := by
  unfold writePin validatePin
  split_ifs <;> rfl

theorem readPin_eq : g.readPin pin =
    if maxPins ≤ pin.toNat then .error ("GPIO pin index out of range: " ++ toString pin)
    else .ok (if g.inRegister.read &&& bit pin ≠ 0 then .high else .low) := by
  unfold readPin validatePin
  split_ifs <;> rfl

theorem togglePin_eq : g.togglePin pin =
    if maxPins ≤ pin.toNat then .error ("GPIO pin index out of range: " ++ toString pin)
    else if ¬ g.isOutputPin pin then
      .error ("Cannot toggle GPIO pin configured as Input: " ++ toString pin)
    else g.writePin pin (if g.inRegister.read &&& bit pin ≠ 0 then .low else .high) := by
  unfold togglePin
  rw [readPin_eq, validatePin]
  split_ifs <;> rfl

theorem setExternalInput_eq : g.setExternalInput pin state =
    if maxPins ≤ pin.toNat then .error ("GPIO pin index out of range: " ++ toString pin)
    else if g.isOutputPin pin then
      .error ("Cannot drive external input on output pin: " ++ toString pin)
    else .ok { g with
      inRegister := g.inRegister.write (withPin pin g.inRegister.read state) } := by
  unfold setExternalInput validatePin
  split_ifs <;> rfl

theorem call_writeBody : (writeBody pin state).call g =
    ((g.writePin pin state).map fun _ => (), unlessThrows g (g.writePin pin state)) := by
  rw [writePin_eq]
  by_cases hpin : maxPins ≤ pin.toNat
  · simp [writeBody, checkPin, hpin, Except.map, unlessThrows]
  · by_cases hout : g.isOutputPin pin = true
    · simp [writeBody, checkPin, hpin, hout, Except.map, unlessThrows]
    · simp [writeBody, checkPin, hpin, hout, Except.map, unlessThrows]

end

theorem call_body (g : GPIO) (o : Op) :
    (body o).call g = ((g.returned o).map fun _ => (), g.perform o) := by
  cases o with
  | configurePin pin direction =>
    rw [returned, perform, configurePin_eq]
    by_cases hpin : maxPins ≤ pin.toNat <;>
      simp [body, checkPin, hpin, Except.map, unlessThrows]
  | writePin pin state => exact call_writeBody g pin state
  | togglePin pin =>
    rw [returned, perform, togglePin_eq]
    by_cases hpin : maxPins ≤ pin.toNat
    · simp [body, checkPin, hpin, Except.map, unlessThrows]
    · by_cases hout : g.isOutputPin pin = true
      · by_cases hin : g.inRegister.read &&& bit pin = 0 <;>
          simp [body, readBody, checkPin, hpin, hout, hin, call_writeBody]
      · simp [body, checkPin, hpin, hout, Except.map, unlessThrows]
  | setExternalInput pin state =>
    rw [returned, perform, setExternalInput_eq]
    by_cases hpin : maxPins ≤ pin.toNat
    · simp [body, checkPin, hpin, Except.map, unlessThrows]
    · by_cases hout : g.isOutputPin pin = true
      · simp [body, checkPin, hpin, hout, Except.map, unlessThrows]
      · simp [body, checkPin, hpin, hout, Except.map, unlessThrows]
  | reset => rfl

/-! ### The bits of a pin -/

/-- The bit of a pin in a register. -/
def hasBit (reg : UInt32) (pin : UInt8) : Bool := reg &&& bit pin ≠ 0

/-- The bits of a pin in DIR, OUT and IN. -/
structure PinBits where
  dir : Bool
  out : Bool
  inp : Bool
  deriving DecidableEq

/-- The bits of a pin in the three registers. -/
def bits (g : GPIO) (pin : UInt8) : PinBits where
  dir := hasBit g.dirRegister.read pin
  out := hasBit g.outRegister.read pin
  inp := hasBit g.inRegister.read pin

/-- The pin of an operation. -/
def Op.pin? : Op → Option UInt8
  | .configurePin pin _ | .writePin pin _ | .togglePin pin | .setExternalInput pin _ => some pin
  | .reset => none

/-- What an operation does to the bits of its pin. -/
def PinBits.act (s : PinBits) : Op → PinBits
  | .configurePin _ direction => { s with dir := direction = .output }
  | .writePin _ state =>
    if s.dir then { s with out := state = .high, inp := state = .high } else s
  | .togglePin _ => if s.dir then { s with out := !s.inp, inp := !s.inp } else s
  | .setExternalInput _ state => if s.dir then s else { s with inp := state = .high }
  | .reset => s

variable {g : GPIO} {pin q : UInt8}

/-- A pin as one of 32 lines. -/
def line (h : pin.toNat < maxPins) : Fin maxInterrupts := ⟨pin.toNat, h⟩

theorem line_inj {hq : q.toNat < maxPins} {h : pin.toNat < maxPins} : line hq = line h ↔ q = pin :=
  Fin.ext_iff.trans UInt8.toNat_inj

theorem bit_eq_line (h : pin.toNat < maxPins) : bit pin = InterruptController.bit (line h) := by
  show 1 <<< pin.toUInt32 = 1 <<< UInt32.ofNat pin.toNat
  rw [UInt32.ofNat_uInt8ToNat]

theorem hasBit_withPin (h : pin.toNat < maxPins) (hq : q.toNat < maxPins) (reg : UInt32)
    (state : PinState) :
    hasBit (withPin pin reg state) q =
      if q = pin then decide (state = .high) else hasBit reg q := by
  rw [Bool.eq_iff_iff, hasBit, decide_eq_true_iff]
  cases state with
  | high =>
    rw [withPin, bit_eq_line h, bit_eq_line hq, InterruptController.or_bit_ne_zero, line_inj]
    by_cases hpin : q = pin <;> simp [hasBit, hpin, bit_eq_line hq]
  | low =>
    rw [withPin, bit_eq_line h, bit_eq_line hq, InterruptController.and_not_bit_ne_zero, Ne, Ne,
      line_inj]
    by_cases hpin : q = pin <;> simp [hasBit, hpin, bit_eq_line hq]

/-- An invalid pin is refused. -/
theorem perform_of_invalid {o : Op} (hpin : o.pin? = some pin) (h : maxPins ≤ pin.toNat) :
    g.perform o = g := by
  cases o with
  | reset => cases hpin
  | configurePin pin direction =>
    cases hpin
    rw [perform, configurePin_eq, if_pos h, unlessThrows]
  | writePin pin state =>
    cases hpin
    rw [perform, writePin_eq, if_pos h, unlessThrows]
  | togglePin pin =>
    cases hpin
    rw [perform, togglePin_eq, if_pos h, unlessThrows]
  | setExternalInput pin state =>
    cases hpin
    rw [perform, setExternalInput_eq, if_pos h, unlessThrows]

section

variable (h : pin.toNat < maxPins) (hq : q.toNat < maxPins) (state : PinState)
include h hq

theorem bits_setDir :
    GPIO.bits
      { g with dirRegister := g.dirRegister.write (withPin pin g.dirRegister.read state) } q =
      if q = pin then { g.bits q with dir := state = .high } else g.bits q := by
  simp only [bits, Register.read_write, hasBit_withPin h hq]
  split_ifs <;> rfl

theorem bits_drive :
    GPIO.bits { g with
        outRegister := g.outRegister.write (withPin pin g.outRegister.read state)
        inRegister := g.inRegister.write (withPin pin g.inRegister.read state) } q =
      if q = pin then { g.bits q with out := state = .high, inp := state = .high }
      else g.bits q := by
  simp only [bits, Register.read_write, hasBit_withPin h hq]
  split_ifs <;> rfl

theorem bits_setIn :
    GPIO.bits { g with inRegister := g.inRegister.write (withPin pin g.inRegister.read state) } q =
      if q = pin then { g.bits q with inp := state = .high } else g.bits q := by
  simp only [bits, Register.read_write, hasBit_withPin h hq]
  split_ifs <;> rfl

theorem bits_writePin : (unlessThrows g (g.writePin pin state)).bits q =
    if q = pin then (g.bits q).act (.writePin pin state) else g.bits q := by
  rw [writePin_eq, if_neg (Nat.not_le.2 h)]
  by_cases hout : g.isOutputPin pin = true
  · rw [if_neg (not_not.2 hout)]
    refine (bits_drive h hq state).trans (ite_congr rfl (fun hpin => ?_) fun _ => rfl)
    have hdir : (g.bits q).dir = true := hpin ▸ hout
    rw [PinBits.act, if_pos hdir]
  · rw [if_pos hout, unlessThrows]
    refine (ite_eq_right_iff.2 fun hpin => ?_).symm
    have hdir : ¬ (g.bits q).dir = true := hpin ▸ hout
    rw [PinBits.act, if_neg hdir]

end

/-- An operation on a pin acts on the bits of that pin alone. -/
theorem bits_perform {o : Op} (hpin : o.pin? = some pin) (h : pin.toNat < maxPins)
    (hq : q.toNat < maxPins) :
    (g.perform o).bits q = if q = pin then (g.bits q).act o else g.bits q := by
  have hvalid := Nat.not_le.2 h
  cases o with
  | reset => cases hpin
  | configurePin pin direction =>
    cases hpin
    rw [perform, configurePin_eq, if_neg hvalid, PinBits.act]
    refine (bits_setDir h hq _).trans ?_
    cases direction <;> rfl
  | writePin pin state =>
    cases hpin
    exact bits_writePin h hq state
  | togglePin pin =>
    cases hpin
    rw [perform, togglePin_eq, if_neg hvalid]
    by_cases hout : g.isOutputPin pin = true
    · rw [if_neg (not_not.2 hout), bits_writePin h hq]
      refine ite_congr rfl (fun hpin => ?_) fun _ => rfl
      subst hpin
      have hdir : (g.bits q).dir = true := hout
      have hlevel : decide ((if g.inRegister.read &&& bit q ≠ 0 then PinState.low else .high) =
          .high) = !(g.bits q).inp := by
        by_cases hin : g.inRegister.read &&& bit q = 0 <;> simp [bits, hasBit, hin]
      rw [PinBits.act, PinBits.act, if_pos hdir, if_pos hdir, hlevel]
    · rw [if_pos hout, unlessThrows]
      refine (ite_eq_right_iff.2 fun hpin => ?_).symm
      have hdir : ¬ (g.bits q).dir = true := hpin ▸ hout
      rw [PinBits.act, if_neg hdir]
  | setExternalInput pin state =>
    cases hpin
    rw [perform, setExternalInput_eq, if_neg hvalid]
    by_cases hout : g.isOutputPin pin = true
    · rw [if_pos hout, unlessThrows]
      refine (ite_eq_right_iff.2 fun hpin => ?_).symm
      have hdir : (g.bits q).dir = true := hpin ▸ hout
      rw [PinBits.act, if_pos hdir]
    · rw [if_neg hout]
      refine (bits_setIn h hq state).trans (ite_congr rfl (fun hpin => ?_) fun _ => rfl)
      have hdir : ¬ (g.bits q).dir = true := hpin ▸ hout
      rw [PinBits.act, if_neg hdir]

theorem bits_perform_of_ne {o : Op} (hpin : o.pin? = some pin) (hne : q ≠ pin)
    (hq : q.toNat < maxPins) : (g.perform o).bits q = g.bits q := by
  by_cases h : maxPins ≤ pin.toNat
  · rw [perform_of_invalid hpin h]
  · rw [bits_perform hpin (Nat.lt_of_not_le h) hq, if_neg hne]

/-! ### Output pins -/

/-- Every output pin reads the level of its OUT bit. -/
def ReadsBack (g : GPIO) : Prop :=
  ∀ pin, pin.toNat < maxPins → g.isOutputPin pin = true →
    g.readPin pin = .ok (if g.outRegister.read &&& bit pin ≠ 0 then .high else .low)

/-- A pin that is made an output has the same level in OUT and IN. -/
def allows (g : GPIO) : Op → Prop
  | .configurePin pin .output => pin.toNat < maxPins →
    (g.inRegister.read &&& bit pin ≠ 0 ↔ g.outRegister.read &&& bit pin ≠ 0)
  | _ => True

/-- The runs of a port. -/
def operations : LTS GPIO Op where
  step g o g' := g' = ((body o).call g).2

theorem readsBack_iff : g.ReadsBack ↔
    ∀ pin, pin.toNat < maxPins → (g.bits pin).dir = true →
      (g.bits pin).inp = (g.bits pin).out := by
  have hpin (pin : UInt8) (h : pin.toNat < maxPins) :
      g.readPin pin = .ok (if g.outRegister.read &&& bit pin ≠ 0 then .high else .low) ↔
        (g.bits pin).inp = (g.bits pin).out := by
    rw [readPin_eq, if_neg (Nat.not_le.2 h)]
    by_cases hin : g.inRegister.read &&& bit pin = 0 <;>
      by_cases hout : g.outRegister.read &&& bit pin = 0 <;> simp [bits, hasBit, hin, hout]
  exact forall_congr' fun pin => forall_congr' fun h => imp_congr_right fun _ => hpin pin h

/-- What every run keeps: the pins are inputs after a reset, and output pins read back. -/
structure Settled (g : GPIO) : Prop where
  resetsToInput : g.dirRegister.initialValue = 0
  readsBack : g.ReadsBack

theorem PinBits.act_settled {s : PinBits} {o : Op} (hs : s.dir = true → s.inp = s.out)
    (hallows : ∀ pin, o = .configurePin pin .output → s.inp = s.out)
    (hdir : (s.act o).dir = true) : (s.act o).inp = (s.act o).out := by
  cases o with
  | configurePin pin direction =>
    cases direction with
    | input => cases hdir
    | output => exact hallows pin rfl
  | writePin pin state =>
    by_cases h : s.dir = true
    · simp [act, h]
    · simp [act, h] at hdir
  | togglePin pin =>
    by_cases h : s.dir = true
    · simp [act, h]
    · simp [act, h] at hdir
  | setExternalInput pin state =>
    by_cases h : s.dir = true
    · simpa [act, h] using hs h
    · simp [act, h] at hdir
  | reset => exact hs hdir

theorem Settled.perform (h : g.Settled) {o : Op} (hallows : g.allows o) :
    (g.perform o).Settled := by
  refine ⟨(g.sameInitial_perform o .dir).trans h.resetsToInput, readsBack_iff.2 ?_⟩
  intro q hq
  have hs := readsBack_iff.1 h.readsBack q hq
  cases hpin : o.pin? with
  | none =>
    obtain rfl : o = .reset := by cases o <;> first | rfl | cases hpin
    intro hdir
    have hclear : ((g.perform .reset).bits q).dir = hasBit g.dirRegister.initialValue q := rfl
    rw [hclear, h.resetsToInput] at hdir
    simp [hasBit] at hdir
  | some pin =>
    by_cases hvalid : maxPins ≤ pin.toNat
    · rw [perform_of_invalid hpin hvalid]
      exact hs
    · rw [bits_perform hpin (Nat.lt_of_not_le hvalid) hq]
      by_cases hne : q = pin
      · subst hne
        rw [if_pos rfl]
        refine PinBits.act_settled hs ?_
        rintro _ rfl
        cases hpin
        exact decide_eq_decide.2 (hallows hq)
      · rw [if_neg hne]
        exact hs

/-- A pin whose levels differ does not read back once it is an output. -/
theorem not_readsBack_perform {o : Op} (hallows : ¬ g.allows o) : ¬ (g.perform o).ReadsBack := by
  cases o with
  | writePin pin state => exact absurd trivial hallows
  | togglePin pin => exact absurd trivial hallows
  | setExternalInput pin state => exact absurd trivial hallows
  | reset => exact absurd trivial hallows
  | configurePin pin direction =>
    cases direction with
    | input => exact absurd trivial hallows
    | output =>
      intro hreads
      refine hallows fun hvalid => ?_
      have hbits := bits_perform (g := g) (o := .configurePin pin .output) rfl hvalid hvalid
      rw [if_pos rfl] at hbits
      have hsame := readsBack_iff.1 hreads pin hvalid (by rw [hbits]; rfl)
      rw [hbits] at hsame
      exact decide_eq_decide.1 hsame

theorem settled_new (baseAddress : Address) : (new baseAddress).Settled :=
  ⟨rfl, readsBack_iff.2 fun pin _ hdir => by simp [new, bits, hasBit] at hdir⟩

/-- **Output pins.**  They read what they drive throughout a run iff no pin is made an output whose
levels in OUT and IN differ.  Operations on other pins do not matter, nor do those that throw. -/
theorem readsBack_iff_allowed (baseAddress : Address) (ls : List Op) :
    (operations.Throughout ReadsBack (new baseAddress) ls ↔
        operations.Allowed allows (new baseAddress) ls) ∧
      (∀ g : GPIO, ∀ o pin q, o.pin? = some pin → q ≠ pin → q.toNat < maxPins →
        ((body o).call g).2.bits q = g.bits q) ∧
      ∀ (g : GPIO) o e g', (body o).call g = (.error e, g') → g'.register = g.register := by
  have hstep {g g' : GPIO} {o : Op} (hstep : operations.step g o g') : g' = g.perform o :=
    hstep.trans (congrArg Prod.snd (g.call_body o))
  refine ⟨?_, ?_, ?_⟩
  · refine LTS.throughout_iff_allowed (I := Settled) (fun g o => ⟨_, rfl⟩) (settled_new baseAddress)
      (fun g h => h.readsBack) ?_ ?_
    · intro g o g' h hs hallows
      rw [hstep hs]
      exact h.perform hallows
    · intro g o g' h hs hallows
      rw [hstep hs]
      exact not_readsBack_perform hallows
  · intro g o pin q hpin hne hq
    rw [call_body]
    exact bits_perform_of_ne hpin hne hq
  · intro g o e g' hthrows
    rw [atomic_body o g e g' hthrows]

/-- A pin that is driven from outside before it is made an output. -/
theorem not_readsBack_driven : ¬ operations.Throughout ReadsBack (new 0)
    [.setExternalInput 3 .high, .configurePin 3 .output] := by
  intro h
  have hreads := h _ _ (List.prefix_refl _) (.cons rfl (.cons rfl (.nil _)))
  exact absurd (hreads 3 (by decide) (by decide)) (by decide)

end GPIO

end Drivers

end EFS
