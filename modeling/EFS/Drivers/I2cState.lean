import EFS.Data.Method
import EFS.Drivers.Operations
import EFS.LTS.Histories

/-!
# The state of the I2C controller

Ten operations change the device list, the transaction and the registers.  The active device never
outlives its place in the list, nor a transaction, and the status register is always up to date.

* `call_body` : the operations, statement by statement, do what `perform` says.
* `Consistent.perform` : each operation keeps the state consistent.
* `consistent_throughout` : the state is consistent throughout every run.
-/

namespace EFS

namespace Drivers

open EFS.Mmio

namespace I2CController

variable {D : Type} [DecidableEq D]

/-! ### Statement by statement -/

/-- What an operation returns. -/
inductive Result
  | done
  | ack (ack : Bool)
  | byte (byte : UInt8)

/-- The acknowledgement in a result. -/
def Result.toAck : Result → Bool
  | .ack b => b
  | .done | .byte _ => false

/-- The byte in a result. -/
def Result.toByte : Result → UInt8
  | .byte b => b
  | .done | .ack _ => 0

/-- The bodies of the operations. -/
def body : Op D → Method (I2CController D) Result
  | .enable => do
    modify fun c => { c with
      controlRegister := c.controlRegister.write (c.controlRegister.read ||| ctrlEnableBit) }
    modify updateStatusRegister
    return .done
  | .disable => do
    modify fun c => { c with
      controlRegister := c.controlRegister.write (c.controlRegister.read &&& ~~~ctrlEnableBit) }
    modify fun c => { c with busy := false }
    modify fun c => { c with activeDevice := none }
    modify updateStatusRegister
    return .done
  | .start address onStart isRead => do
    Method.throwIf (fun c => ¬ c.enabled) "I2C is disabled"
    modify fun c => { c with busy := true }
    modify fun c => { c with isReadMode := isRead }
    let c ← get
    let found := c.devices.find? fun d => address d = c.slaveAddress
    let ack := found.elim false (onStart · isRead)
    modify fun c => { c with lastAck := ack }
    modify fun c => { c with activeDevice := if ack then found else none }
    modify updateStatusRegister
    return .ack ack
  | .stop => do
    modify fun c => { c with activeDevice := none }
    modify fun c => { c with busy := false }
    modify updateStatusRegister
    return .done
  | .writeByte onWrite byte => do
    Method.throwIf (fun c => ¬ c.enabled) "I2C is disabled"
    Method.throwIf (fun c => ¬ c.busy) "I2C transaction not started"
    let c ← get
    let ack := c.activeDevice.elim false (onWrite · byte)
    modify fun c => { c with lastAck := ack }
    modify fun c => { c with dataRegister := c.dataRegister.write byte.toUInt32 }
    modify updateStatusRegister
    return .ack ack
  | .readByte onRead => do
    Method.throwIf (fun c => ¬ c.enabled) "I2C is disabled"
    let c ← get
    match c.rxBuffer with
    | byte :: rest => do
      modify fun c => { c with rxBuffer := rest }
      modify updateStatusRegister
      return .byte byte
    | [] =>
      match c.activeDevice with
      | none => throw "I2C RX buffer empty"
      | some d => do
        Method.throwIf (fun c => ¬ c.busy) "I2C RX buffer empty"
        let byte := onRead d
        modify fun c => { c with dataRegister := c.dataRegister.write byte.toUInt32 }
        modify updateStatusRegister
        return .byte byte
  | .setSlaveAddress address => do
    modify fun c => { c with addrRegister := c.addrRegister.write (address &&& 0x7F).toUInt32 }
    return .done
  | .attachDevice none => return .done
  | .attachDevice (some d) => do
    modify fun c => if d ∈ c.devices then c else { c with devices := c.devices ++ [d] }
    return .done
  | .detachDevice none => return .done
  | .detachDevice (some d) => do
    modify fun c => { c with devices := c.devices.erase d }
    modify fun c => if c.activeDevice = some d then { c with activeDevice := none } else c
    return .done
  | .reset => do
    modify disable
    modify fun c => { c with devices := [] }
    modify fun c => { c with activeDevice := none }
    modify fun c => { c with rxBuffer := [] }
    modify fun c => { c with dataRegister := c.dataRegister.reset }
    modify fun c => { c with controlRegister := c.controlRegister.reset }
    modify fun c => { c with addrRegister := c.addrRegister.reset }
    modify fun c => { c with busy := false }
    modify fun c => { c with lastAck := false }
    modify updateStatusRegister
    return .done

/-- What an operation returns or throws. -/
def returned (c : I2CController D) : Op D → Except String Result
  | .start address onStart isRead => (c.start address onStart isRead).map fun r => .ack r.1
  | .writeByte onWrite byte => (c.writeByte onWrite byte).map fun r => .ack r.1
  | .readByte onRead => (c.readByte onRead).map fun r => .byte r.1
  | _ => .ok .done

/-- The device with the slave address. -/
def found (c : I2CController D) (address : D → UInt8) : Option D :=
  c.devices.find? fun d => address d = c.slaveAddress

omit [DecidableEq D] in
theorem start_eq {c : I2CController D} (h : c.enabled = true) (address : D → UInt8)
    (onStart : D → Bool → Bool) (isRead : Bool) :
    let ack := (c.found address).elim false (onStart · isRead)
    c.start address onStart isRead = .ok (ack, { c with
      busy := true
      isReadMode := isRead
      lastAck := ack
      activeDevice := if ack then c.found address else none }.updateStatusRegister) := by
  intro ack
  have hfound : c.found address =
    { c with busy := true, isReadMode := isRead }.devices.find? fun d => address d =
      { c with busy := true, isReadMode := isRead }.slaveAddress := rfl
  rw [start, if_neg (not_not.2 h)]
  dsimp only
  rw [← hfound]
  cases hc : c.found address with
  | none => simp only [ack, hc, Option.elim_none, Bool.false_eq_true, if_false]
  | some d => simp only [ack, hc, Option.elim_some]

theorem call_body (c : I2CController D) (o : Op D) :
    (body o).call c = (c.returned o, c.perform o) := by
  cases o with
  | enable | disable | stop | setSlaveAddress address | reset => rfl
  | start address onStart isRead =>
    by_cases h : c.enabled = true
    · rw [returned, perform, start_eq h]
      simp [body, h, found, slaveAddress, Except.map, afterCall]
    · simp [body, returned, perform, start, h, Except.map, afterCall]
  | writeByte onWrite byte =>
    by_cases h : c.enabled = true
    · by_cases hbusy : c.busy = true
      · cases hactive : c.activeDevice <;>
          simp [body, returned, perform, writeByte, h, hbusy, hactive, Except.map, afterCall]
      · simp [body, returned, perform, writeByte, h, hbusy, Except.map, afterCall]
    · simp [body, returned, perform, writeByte, h, Except.map, afterCall]
  | readByte onRead =>
    by_cases h : c.enabled = true
    · cases hbuffer : c.rxBuffer with
      | cons byte rest =>
        simp [body, returned, perform, readByte, h, hbuffer, Except.map, afterCall]
      | nil =>
        cases hactive : c.activeDevice with
        | none =>
          simp [body, returned, perform, readByte, h, hbuffer, hactive, Except.map, afterCall]
        | some d =>
          by_cases hbusy : c.busy = true
          · simp [body, returned, perform, readByte, h, hbuffer, hactive, hbusy, Except.map,
              afterCall]
          · simp [body, returned, perform, readByte, h, hbuffer, hactive, hbusy, Except.map,
              afterCall]
    · simp [body, returned, perform, readByte, h, Except.map, afterCall]
  | attachDevice device =>
    cases device with
    | none => rfl
    | some d => rfl
  | detachDevice device =>
    cases device with
    | none => rfl
    | some d =>
      by_cases hactive : c.activeDevice = some d <;>
        simp [body, returned, perform, detachDevice, hactive, Except.map]

theorem atomic_body (o : Op D) : (body o).Atomic := by
  cases o with
  | enable | disable | stop | setSlaveAddress _ | reset => exact .of_completes fun c => ⟨_, _, rfl⟩
  | start address onStart isRead =>
    exact .after_check Method.observes_throwIf fun _ => .of_completes fun c => ⟨_, _, rfl⟩
  | writeByte onWrite byte =>
    exact .after_check Method.observes_throwIf fun _ =>
      .after_check Method.observes_throwIf fun _ => .of_completes fun c => ⟨_, _, rfl⟩
  | readByte onRead =>
    refine .after_check Method.observes_throwIf fun _ => .after_check (fun _ => rfl) fun c => ?_
    cases c.rxBuffer with
    | cons byte rest => exact .of_completes fun c => ⟨_, _, rfl⟩
    | nil =>
      cases c.activeDevice with
      | none => exact .of_observes fun _ => rfl
      | some d =>
        exact .after_check Method.observes_throwIf fun _ => .of_completes fun c => ⟨_, _, rfl⟩
  | attachDevice device => cases device <;> exact .of_completes fun c => ⟨_, _, rfl⟩
  | detachDevice device => cases device <;> exact .of_completes fun c => ⟨_, _, rfl⟩

/-! ### Consistency -/

/-- The status register that belongs to the state. -/
def statusValue (c : I2CController D) : UInt32 :=
  (if c.enabled then statusEnabledBit else 0) ||| (if c.busy then statusBusyBit else 0) |||
    (if ¬ c.rxBuffer.isEmpty then statusRxAvailBit else 0) |||
    (if ¬ c.lastAck ∧ c.busy then statusNackBit else 0)

/-- A device is addressed only during a transaction of an enabled controller that it is attached
to, and STATUS shows the fields. -/
structure Consistent (c : I2CController D) : Prop where
  nodup : c.devices.Nodup
  active_mem : ∀ d, c.activeDevice = some d → d ∈ c.devices
  busy_of_active : c.activeDevice ≠ none → c.busy = true
  enabled_of_busy : c.busy = true → c.enabled = true
  status : c.statusRegister.read = c.statusValue

omit [DecidableEq D] in
theorem status_updateStatusRegister (c : I2CController D) :
    c.updateStatusRegister.statusRegister.read = c.updateStatusRegister.statusValue := by
  have hbits (enabled busy empty lastAck : Bool) :
      (let status := if enabled then statusEnabledBit else 0
      let status := if busy then status ||| statusBusyBit else status
      let status := if ¬ empty then status ||| statusRxAvailBit else status
      if ¬ lastAck ∧ busy then status ||| statusNackBit else status) =
      (if enabled then statusEnabledBit else 0) ||| (if busy then statusBusyBit else 0) |||
        (if ¬ empty then statusRxAvailBit else 0) |||
        (if ¬ lastAck ∧ busy then statusNackBit else 0) := by
    revert enabled busy empty lastAck
    decide
  exact hbits c.enabled c.busy c.rxBuffer.isEmpty c.lastAck

variable {c : I2CController D}

omit [DecidableEq D] in
/-- What an operation leaves before it updates the status register. -/
theorem consistent_updateStatusRegister (hnodup : c.devices.Nodup)
    (hmem : ∀ d, c.activeDevice = some d → d ∈ c.devices)
    (hbusy : c.activeDevice ≠ none → c.busy = true) (henabled : c.busy = true → c.enabled = true) :
    c.updateStatusRegister.Consistent :=
  ⟨hnodup, hmem, hbusy, henabled, c.status_updateStatusRegister⟩

omit [DecidableEq D] in
theorem consistent_idle (hnodup : c.devices.Nodup) (hactive : c.activeDevice = none)
    (hbusy : c.busy = false) : c.updateStatusRegister.Consistent :=
  consistent_updateStatusRegister hnodup (fun d hd => by rw [hactive] at hd; cases hd)
    (fun hne => absurd hactive hne)
    (fun htrue => absurd (hbusy.symm.trans htrue) Bool.false_ne_true)

omit [DecidableEq D] in
theorem Consistent.start (h : c.Consistent) (address : D → UInt8) (onStart : D → Bool → Bool)
    (isRead : Bool) : (afterCall c (c.start address onStart isRead)).Consistent := by
  by_cases henabled : c.enabled = true
  · rw [start_eq henabled]
    refine consistent_updateStatusRegister h.nodup ?_ (fun _ => rfl) (fun _ => henabled)
    intro d hd
    have hfound : c.found address = some d := by
      dsimp only at hd
      split_ifs at hd
      exact hd
    exact List.mem_of_find?_eq_some hfound
  · rw [I2CController.start, if_pos henabled]
    exact h

omit [DecidableEq D] in
theorem Consistent.writeByte (h : c.Consistent) (onWrite : D → UInt8 → Bool) (byte : UInt8) :
    (afterCall c (c.writeByte onWrite byte)).Consistent := by
  rw [I2CController.writeByte]
  split_ifs
  · exact consistent_updateStatusRegister h.nodup h.active_mem h.busy_of_active h.enabled_of_busy
  · exact h
  · exact h

omit [DecidableEq D] in
theorem Consistent.readByte (h : c.Consistent) (onRead : D → UInt8) :
    (afterCall c (c.readByte onRead)).Consistent := by
  have hkept (data : Register) (rest : List UInt8) :
      ({ c with dataRegister := data, rxBuffer := rest }.updateStatusRegister).Consistent :=
    consistent_updateStatusRegister h.nodup h.active_mem h.busy_of_active h.enabled_of_busy
  by_cases henabled : c.enabled = true
  · rw [I2CController.readByte, if_neg (not_not.2 henabled)]
    cases hbuffer : c.rxBuffer with
    | cons byte rest => exact hkept c.dataRegister rest
    | nil =>
      cases hactive : c.activeDevice with
      | none => exact h
      | some d =>
        by_cases hbusy : c.busy = true
        · have hdata := hkept (c.dataRegister.write (onRead d).toUInt32) []
          rw [hactive] at hdata
          simp only [if_neg (not_not.2 hbusy)]
          exact hdata
        · simp only [if_pos hbusy]
          exact h
  · rw [I2CController.readByte, if_pos henabled]
    exact h

theorem Consistent.attachDevice (h : c.Consistent) (device : Option D) :
    (c.attachDevice device).Consistent := by
  cases device with
  | none => exact h
  | some d =>
    rw [I2CController.attachDevice]
    split_ifs with hd
    · exact h
    · have hnodup : (c.devices ++ [d]).Nodup := by
        rw [List.nodup_append_comm, List.singleton_append]
        exact List.nodup_cons.2 ⟨hd, h.nodup⟩
      exact ⟨hnodup, fun d' hd' => List.mem_append_left _ (h.active_mem d' hd'), h.busy_of_active,
        h.enabled_of_busy, h.status⟩

/-- The active device stays in the list, because it is given up when it is detached. -/
theorem Consistent.detachDevice (h : c.Consistent) (device : Option D) :
    (c.detachDevice device).Consistent := by
  cases device with
  | none => exact h
  | some d =>
    have hactive (d' : D) (hd' : (c.detachDevice (some d)).activeDevice = some d') :
        d' ≠ d ∧ c.activeDevice = some d' := by
      simp only [I2CController.detachDevice] at hd'
      split_ifs at hd' with hd
      exact ⟨fun heq => hd (heq ▸ hd'), hd'⟩
    refine ⟨h.nodup.erase d, ?_, ?_, h.enabled_of_busy, h.status⟩
    · intro d' hd'
      obtain ⟨hne, hd'⟩ := hactive d' hd'
      exact (List.mem_erase_of_ne hne).2 (h.active_mem d' hd')
    · intro hsome
      obtain ⟨d', hd'⟩ := Option.ne_none_iff_exists'.1 hsome
      exact h.busy_of_active fun hnone => by
        rw [(hactive d' hd').2] at hnone
        cases hnone

theorem Consistent.perform (h : c.Consistent) (o : Op D) : (c.perform o).Consistent := by
  cases o with
  | enable =>
    have henabled : (c.enable).enabled = true := by
      have hbit : c.enable.controlRegister.read &&& ctrlEnableBit = ctrlEnableBit := or_and_mask _ _
      rw [enabled, hbit]
      decide
    exact ⟨h.nodup, h.active_mem, h.busy_of_active, fun _ => henabled,
      status_updateStatusRegister _⟩
  | disable => exact consistent_idle h.nodup rfl rfl
  | start address onStart isRead => exact h.start address onStart isRead
  | stop => exact consistent_idle h.nodup rfl rfl
  | writeByte onWrite byte => exact h.writeByte onWrite byte
  | readByte onRead => exact h.readByte onRead
  | setSlaveAddress address =>
    exact ⟨h.nodup, h.active_mem, h.busy_of_active, h.enabled_of_busy, h.status⟩
  | attachDevice device => exact h.attachDevice device
  | detachDevice device => exact h.detachDevice device
  | reset => exact consistent_idle List.nodup_nil rfl rfl

/-- The runs of a controller. -/
def operations (D : Type) [DecidableEq D] : LTS (I2CController D) (Op D) where
  step c o c' := c' = ((body o).call c).2

theorem step_eq {c' : I2CController D} {o : Op D} (h : (operations D).step c o c') :
    c' = c.perform o :=
  h.trans (congrArg Prod.snd (c.call_body o))

section

variable {baseAddress : Address} {defaultSlaveAddress : UInt8}

theorem consistent_of_reachable
    (h : (operations D).Reachable (new baseAddress defaultSlaveAddress) c) : c.Consistent := by
  refine h.invariant (consistent_idle List.nodup_nil rfl rfl) ?_
  intro c o c' hc hstep
  exact step_eq hstep ▸ hc.perform o

/-- No operation buffers a byte. -/
theorem rxBuffer_perform (h : c.rxBuffer = []) (o : Op D) : (c.perform o).rxBuffer = [] := by
  cases o with
  | enable | disable | stop | setSlaveAddress _ => exact h
  | reset => rfl
  | start address onStart isRead =>
    by_cases henabled : c.enabled = true
    · rw [perform, start_eq henabled]
      exact h
    · rw [perform, start, if_pos henabled]
      exact h
  | writeByte onWrite byte =>
    rw [perform, writeByte]
    split_ifs <;> exact h
  -- nothing is ever put into the buffer, so a byte comes from the active device
  | readByte onRead =>
    by_cases henabled : c.enabled = true
    · rw [perform, readByte, if_neg (not_not.2 henabled), h]
      cases c.activeDevice with
      | none => exact h
      | some d =>
        by_cases hbusy : c.busy = true <;> simp [hbusy, afterCall, h, updateStatusRegister]
    · rw [perform, readByte, if_pos henabled]
      exact h
  | attachDevice device =>
    cases device with
    | none => exact h
    | some d =>
      rw [perform, attachDevice]
      split_ifs <;> exact h
  | detachDevice device => cases device <;> exact h

end

/-- **The state of the controller.**  It is consistent throughout every run, and an operation that
throws changes nothing. -/
theorem consistent_throughout (baseAddress : Address) (defaultSlaveAddress : UInt8)
    (os : List (Op D)) :
    (operations D).Throughout
      (fun c => (c.devices.Nodup ∧ (∀ d, c.activeDevice = some d → d ∈ c.devices) ∧
          (c.activeDevice ≠ none → c.busy = true) ∧ (c.busy = true → c.enabled = true) ∧
          c.statusRegister.read = c.statusValue) ∧
        ∀ o e c', (body o).call c = (.error e, c') → c' = c)
      (new baseAddress defaultSlaveAddress) os := by
  intro pre c hpre hrun
  have h : c.Consistent := consistent_of_reachable ⟨pre, hrun⟩
  exact ⟨⟨h.nodup, h.active_mem, h.busy_of_active, h.enabled_of_busy, h.status⟩,
    fun o e c' hthrows => atomic_body o c e c' hthrows⟩

end I2CController

end Drivers

end EFS
