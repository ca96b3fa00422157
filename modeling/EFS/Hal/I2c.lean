import EFS.Drivers.I2cDirection
import EFS.Drivers.I2cState

/-!
# Transactions through the I2C HAL

`I2CHAL` writes to a slave device and reads from it, byte by byte.  The devices are simulated ones:
each has its queue of responses and keeps the bytes that it receives.

* `transmit`, `requestFrom`, `readBytes` : the calls of a program that writes to an address,
  requests bytes from it and reads them.
* `transaction` : they reach the first device with that address, if it acknowledges, and no other.
-/

namespace EFS

namespace Drivers

open EFS.Mmio

/-! ### Simulated devices -/

/-- A simulated device: its answers, and the bytes that it has received. -/
structure SimulatedI2CDevice where
  address : UInt8
  defaultResponse : UInt8
  ackEnabled : Bool
  responseQueue : List UInt8
  receivedBytes : List UInt8

namespace SimulatedI2CDevice

variable (dev : SimulatedI2CDevice)

/-- `onStart()` acknowledges both directions alike. -/
def onStart (_ : Bool) : Bool := dev.ackEnabled

/-- `onWrite()` keeps the byte if it is acknowledged. -/
def onWrite (byte : UInt8) : Bool × SimulatedI2CDevice :=
  if ¬ dev.ackEnabled then (false, dev)
  else (true, { dev with receivedBytes := dev.receivedBytes ++ [byte] })

/-- `onRead()`: the next queued answer, else the default one. -/
def onRead : UInt8 × SimulatedI2CDevice :=
  match dev.responseQueue with
  | byte :: rest => (byte, { dev with responseQueue := rest })
  | [] => (dev.defaultResponse, dev)

/-- The next responses: those queued, and then default ones. -/
def responses (n : ℕ) : List UInt8 :=
  dev.responseQueue.take n ++ List.replicate (n - dev.responseQueue.length) dev.defaultResponse

theorem responses_succ (n : ℕ) :
    dev.responses (n + 1) = dev.onRead.1 :: dev.onRead.2.responses n := by
  cases hqueue : dev.responseQueue with
  | nil => simp [responses, onRead, hqueue, List.replicate_succ]
  | cons byte rest => simp [responses, onRead, hqueue]

theorem length_responses (n : ℕ) : (dev.responses n).length = n := by
  rw [responses, List.length_append, List.length_take, List.length_replicate]
  omega

end SimulatedI2CDevice

/-- What a call does to the devices. -/
def DeviceCall.act {D : Type} [DecidableEq D] (device : D → SimulatedI2CDevice) :
    DeviceCall D → D → SimulatedI2CDevice
  | .onWrite d byte => Function.update device d ((device d).onWrite byte).2
  | .onRead d => Function.update device d (device d).onRead.2
  | .onStart _ _ _ | .onStop _ => device

/-! ### Programs that write the registers -/

namespace I2CController

variable {D : Type} [DecidableEq D]

/-- The controller after a write to one of its registers. -/
def writeRegister (c : I2CController D) (r : I2CRegister) (value : UInt32) : I2CController D :=
  match r with
  | .data => { c with dataRegister := c.dataRegister.write value }
  | .status => { c with statusRegister := c.statusRegister.write value }
  | .control => { c with controlRegister := c.controlRegister.write value }
  | .addr => { c with addrRegister := c.addrRegister.write value }

/-- What a program does: an operation, or a write to a register on the bus. -/
inductive Action (D : Type)
  | operation (o : Op D)
  | write (r : I2CRegister) (value : UInt32)

/-- The runs of a controller under operations and register writes. -/
def programs (D : Type) [DecidableEq D] : LTS (I2CController D) (Action D) where
  step c a c' :=
    match a with
    | .operation o => c' = ((body o).call c).2
    | .write r value => c' = c.writeRegister r value

theorem rxBuffer_of_programs {baseAddress : Address} {defaultSlaveAddress : UInt8}
    {c : I2CController D}
    (h : (programs D).Reachable (new baseAddress defaultSlaveAddress) c) : c.rxBuffer = [] := by
  refine h.invariant (I := fun c => c.rxBuffer = []) rfl ?_
  rintro c a _ hc hstep
  cases a with
  | operation o => exact step_eq hstep ▸ rxBuffer_perform hc o
  | write r value =>
    obtain rfl := hstep
    cases r <;> exact hc

end I2CController

end Drivers

namespace Hal

open EFS.Drivers EFS.Mmio

/-- A HAL object, the controller it points to and the devices of that one. -/
structure I2CHAL (D : Type) where
  /-- `m_controller` is not null. -/
  attached : Bool
  rxQueue : List UInt8
  controller : I2CController D
  device : D → SimulatedI2CDevice

namespace I2CHAL

variable {D : Type} [DecidableEq D]

/-! ### Calls of the controller -/

/-- A call of the controller, which calls its devices. -/
def onController (op : (D → SimulatedI2CDevice) → I2CController.Op D) :
    Method (I2CHAL D) I2CController.Result := fun h =>
  let called := (I2CController.body (op h.device)).call h.controller
  (called.1, { h with
    controller := called.2
    device := (h.controller.calls (op h.device)).foldl DeviceCall.act h.device })

/-- The controller's `setSlaveAddress()`. -/
def setSlaveAddress (address : UInt8) : Method (I2CHAL D) Unit := do
  let _ ← onController fun _ => .setSlaveAddress address
  return

/-- The controller's `start()`, answered by the simulated devices. -/
def start (isRead : Bool) : Method (I2CHAL D) Bool := do
  let result ← onController fun device =>
    .start (fun d => (device d).address) (fun d isRead => (device d).onStart isRead) isRead
  return result.toAck

/-- The controller's `stop()`. -/
def stop : Method (I2CHAL D) Unit := do
  let _ ← onController fun _ => .stop
  return

/-- The controller's `writeByte()`, answered by the addressed device. -/
def controllerWrite (byte : UInt8) : Method (I2CHAL D) Bool := do
  let result ← onController fun device =>
    .writeByte (fun d byte => ((device d).onWrite byte).1) byte
  return result.toAck

/-- The controller's `readByte()`, answered by the addressed device. -/
def controllerRead : Method (I2CHAL D) UInt8 := do
  let result ← onController fun device => .readByte fun d => (device d).onRead.1
  return result.toByte

/-! ### Operations -/

/-- The check that every operation of the HAL begins with. -/
def checkAttached : Method (I2CHAL D) Unit :=
  Method.throwIf (fun h => ¬ h.attached) "I2CHAL: unattached driver"

/-- `beginTransmission()`. -/
def beginTransmission (address : UInt8) : Method (I2CHAL D) Bool := do
  checkAttached
  setSlaveAddress address
  start false

/-- `endTransmission()`: the last acknowledgement, read before the stop. -/
def endTransmission : Method (I2CHAL D) Bool := do
  checkAttached
  let h ← get
  stop
  return h.controller.lastAck

/-- `writeByte()`. -/
def writeByte (byte : UInt8) : Method (I2CHAL D) Bool := do
  checkAttached
  controllerWrite byte

/-- `readByte()`: a byte of an earlier request, else one from the controller. -/
def readByte : Method (I2CHAL D) UInt8 := do
  let h ← get
  match h.rxQueue with
  | byte :: rest => do
    modify fun h => { h with rxQueue := rest }
    return byte
  | [] => do
    checkAttached
    controllerRead

/-- The loop of `requestFrom`. -/
def fill : ℕ → UInt64 → Method (I2CHAL D) UInt64
  | 0, count => return count
  | n + 1, count => do
    let byte ← controllerRead
    modify fun h => { h with rxQueue := h.rxQueue ++ [byte] }
    fill n (count + 1)

/-- `requestFrom()` reads a quantity of bytes into the queue, if the device acknowledges. -/
def requestFrom (address : UInt8) (quantity : UInt64) : Method (I2CHAL D) UInt64 := do
  checkAttached
  modify fun h => { h with rxQueue := [] }
  setSlaveAddress address
  let ack ← start true
  if ¬ ack then
    stop
    return 0
  else
    let count ← fill quantity.toNat 0
    stop
    return count

/-- `available()`. -/
def available (h : I2CHAL D) : ℕ := h.rxQueue.length

/-! ### A program -/

/-- `writeByte` for each byte. -/
def writeBytes : List UInt8 → Method (I2CHAL D) (List Bool)
  | [] => return []
  | byte :: bytes => do
    let ack ← writeByte byte
    let acks ← writeBytes bytes
    return ack :: acks

/-- `readByte`, a number of times. -/
def readBytes : ℕ → Method (I2CHAL D) (List UInt8)
  | 0 => return []
  | n + 1 => do
    let byte ← readByte
    let bytes ← readBytes n
    return byte :: bytes

/-- The program sends the bytes to the address.  All acknowledgements are collected. -/
def transmit (address : UInt8) (bytes : List UInt8) :
    Method (I2CHAL D) (Bool × List Bool × Bool) := do
  let begun ← beginTransmission address
  let acks ← writeBytes bytes
  let ended ← endTransmission
  return (begun, acks, ended)

/-! ### Between transactions and during one -/

/-- No transaction is going on: the controller has the devices `l`, their states are `dev`, and the
HAL object has read `q`. -/
structure Idle (l : List D) (dev : D → SimulatedI2CDevice) (q : List UInt8) (h : I2CHAL D) :
    Prop where
  attached : h.attached = true
  enabled : h.controller.enabled = true
  rxBuffer : h.controller.rxBuffer = []
  busy : h.controller.busy = false
  devices : h.controller.devices = l
  device : h.device = dev
  rxQueue : h.rxQueue = q

/-- A transaction with the device `t` is going on, or one that no device has acknowledged. -/
structure Talking (l : List D) (dev : D → SimulatedI2CDevice) (q : List UInt8) (t : Option D)
    (h : I2CHAL D) : Prop where
  attached : h.attached = true
  enabled : h.controller.enabled = true
  rxBuffer : h.controller.rxBuffer = []
  busy : h.controller.busy = true
  active : h.controller.activeDevice = t
  lastAck : h.controller.lastAck = t.isSome
  devices : h.controller.devices = l
  device : h.device = dev
  rxQueue : h.rxQueue = q

/-- The device that a transaction with the address reaches: the first one, if it acknowledges. -/
def target (l : List D) (dev : D → SimulatedI2CDevice) (a : UInt8) : Option D :=
  (l.find? fun d => (dev d).address = a).filter fun d => (dev d).ackEnabled

variable {l : List D} {dev : D → SimulatedI2CDevice} {q : List UInt8} {t : Option D} {a : UInt8}

theorem call_onController (op : (D → SimulatedI2CDevice) → I2CController.Op D) (h : I2CHAL D) :
    (onController op).call h = (h.controller.returned (op h.device), { h with
      controller := h.controller.perform (op h.device)
      device := (h.controller.calls (op h.device)).foldl DeviceCall.act h.device }) := by
  have hbody := h.controller.call_body (op h.device)
  show (((I2CController.body (op h.device)).call h.controller).1, { h with
    controller := ((I2CController.body (op h.device)).call h.controller).2
    device := (h.controller.calls (op h.device)).foldl DeviceCall.act h.device }) = _
  rw [hbody]

omit [DecidableEq D] in
theorem checkAttached_idle : Method.Triple (Idle l dev q) checkAttached fun _ h => Idle l dev q h :=
  .throwIf fun h hi => by simp [hi.attached]

omit [DecidableEq D] in
theorem checkAttached_talking :
    Method.Triple (Talking l dev q t) checkAttached fun _ h => Talking l dev q t h :=
  .throwIf fun h ht => by simp [ht.attached]

omit [DecidableEq D] in
theorem slaveAddress_setSlaveAddress (c : I2CController D) (ha : a.toNat < 128) :
    (c.setSlaveAddress a).slaveAddress = a := by
  have hmask : a &&& 0x7F = a := by
    refine UInt8.toNat_inj.1 ?_
    rw [UInt8.toNat_and]
    exact (Nat.and_two_pow_sub_one_eq_mod _ 7).trans (Nat.mod_eq_of_lt ha)
  show ((a &&& 0x7F).toUInt32 &&& 0x7F).toUInt8 = a
  rw [hmask, UInt32.toUInt8_and, UInt8.toUInt8_toUInt32]
  exact hmask

theorem setSlaveAddress_spec (ha : a.toNat < 128) : Method.Triple (Idle l dev q) (setSlaveAddress a)
    fun _ h => Idle l dev q h ∧ h.controller.slaveAddress = a := by
  intro h hi
  refine ⟨(), { h with controller := h.controller.setSlaveAddress a }, rfl, ?_,
    slaveAddress_setSlaveAddress _ ha⟩
  exact ⟨hi.attached, hi.enabled, hi.rxBuffer, hi.busy, hi.devices, hi.device, hi.rxQueue⟩

theorem foldl_startCalls (c : I2CController D) (address : D → UInt8) (onStart : D → Bool → Bool)
    (isRead : Bool) : (c.startCalls address onStart isRead).foldl DeviceCall.act dev = dev := by
  rw [I2CController.startCalls]
  split_ifs
  · cases c.devices.find? fun d => address d = c.slaveAddress <;> rfl
  · rfl

theorem start_spec (isRead : Bool) :
    Method.Triple (fun h => Idle l dev q h ∧ h.controller.slaveAddress = a) (start isRead)
      fun ack h => ack = (target l dev a).isSome ∧ Talking l dev q (target l dev a) h := by
  rintro h ⟨⟨hattached, henabled, hrx, hbusy, rfl, rfl, rfl⟩, haddress⟩
  have hfound : h.controller.found (fun d => (h.device d).address) =
      h.controller.devices.find? fun d => (h.device d).address = a := by
    rw [I2CController.found, haddress]
  have htarget : let found := h.controller.devices.find? fun d => (h.device d).address = a
      let ack := found.elim false fun d => (h.device d).ackEnabled
      ack = (target h.controller.devices h.device a).isSome ∧
        (if ack then found else none) = target h.controller.devices h.device a := by
    rw [target]
    cases h.controller.devices.find? fun d => (h.device d).address = a with
    | none => exact ⟨rfl, rfl⟩
    | some d => cases hd : (h.device d).ackEnabled <;> simp [Option.filter, hd]
  obtain ⟨hack, hactive⟩ := htarget
  have hcall := call_onController (fun device => .start (fun d => (device d).address)
    (fun d isRead => (device d).onStart isRead) isRead) h
  have hstart := I2CController.start_eq henabled (fun d => (h.device d).address)
    (fun d isRead => (h.device d).onStart isRead) isRead
  rw [hfound] at hstart
  rw [I2CController.returned, I2CController.perform, hstart, I2CController.calls, foldl_startCalls]
    at hcall
  exact ⟨_, _, Method.call_bind_ok _ _ _ _ hcall, hack,
    ⟨hattached, henabled, hrx, rfl, hactive, hack, rfl, rfl, rfl⟩⟩

theorem stop_spec :
    Method.Triple (Talking l dev q t) stop fun _ h => Idle l dev q h := by
  rintro h ⟨hattached, henabled, hrx, hbusy, hactive, hlast, rfl, rfl, rfl⟩
  have hcalls : h.controller.stopCalls.foldl DeviceCall.act h.device = h.device := by
    rw [I2CController.stopCalls]
    cases h.controller.activeDevice <;> rfl
  have hcall := call_onController (fun _ => .stop) h
  rw [I2CController.calls, hcalls] at hcall
  exact ⟨_, _, Method.call_bind_ok _ _ _ _ hcall, hattached, henabled, hrx, rfl, rfl, rfl, rfl⟩

/-! ### Writing -/

/-- The devices after the device `t`, if there is one, has received the bytes. -/
def received (dev : D → SimulatedI2CDevice) (t : Option D) (bytes : List UInt8) :
    D → SimulatedI2CDevice :=
  match t with
  | none => dev
  | some d => Function.update dev d { dev d with receivedBytes := (dev d).receivedBytes ++ bytes }

theorem controllerWrite_spec (ht : ∀ d, t = some d → (dev d).ackEnabled = true) (byte : UInt8) :
    Method.Triple (Talking l dev q t) (controllerWrite byte)
      fun ack h => ack = t.isSome ∧ Talking l (received dev t [byte]) q t h := by
  rintro h ⟨hattached, henabled, hrx, hbusy, hactive, hlast, rfl, rfl, rfl⟩
  have hcall := call_onController
    (fun device => .writeByte (fun d byte => ((device d).onWrite byte).1) byte) h
  rw [I2CController.returned, I2CController.perform, I2CController.calls, I2CController.writeByte,
    I2CController.writeByteCalls, if_neg (not_not.2 henabled), if_neg (not_not.2 hbusy),
    if_neg (not_not.2 henabled), if_neg (not_not.2 hbusy), hactive] at hcall
  refine ⟨_, _, Method.call_bind_ok _ _ _ _ hcall, ?_⟩
  cases t with
  | none => exact ⟨rfl, hattached, henabled, hrx, hbusy, rfl, rfl, rfl, rfl, rfl⟩
  | some d =>
    have hwrite : (h.device d).onWrite byte = (true, { h.device d with
        receivedBytes := (h.device d).receivedBytes ++ [byte] }) := by
      rw [SimulatedI2CDevice.onWrite, if_neg (not_not.2 (ht d rfl))]
    have hack : ((h.device d).onWrite byte).1 = true := by rw [hwrite]
    refine ⟨hack, hattached, henabled, hrx, hbusy, rfl, hack, rfl, ?_, rfl⟩
    show Function.update h.device d ((h.device d).onWrite byte).2 = _
    rw [hwrite]
    rfl

theorem received_nil (dev : D → SimulatedI2CDevice) (t : Option D) :
    received dev t [] = dev := by
  cases t with
  | none => rfl
  | some d => simp [received]

theorem received_cons (byte : UInt8) (bytes : List UInt8) :
    received (received dev t [byte]) t bytes = received dev t (byte :: bytes) := by
  cases t with
  | none => rfl
  | some d => simp [received]

theorem received_apply (bytes : List UInt8) (d : D) :
    (received dev t bytes d).address = (dev d).address ∧
      (received dev t bytes d).ackEnabled = (dev d).ackEnabled := by
  cases t with
  | none => exact ⟨rfl, rfl⟩
  | some d' =>
    by_cases hd : d = d'
    · subst hd
      simp [received]
    · simp [received, Function.update_of_ne hd]

theorem writeBytes_spec (ht : ∀ d, t = some d → (dev d).ackEnabled = true) (bytes : List UInt8) :
    Method.Triple (Talking l dev q t) (writeBytes bytes)
      fun acks h => acks = bytes.map (fun _ => t.isSome) ∧
        Talking l (received dev t bytes) q t h := by
  induction bytes generalizing dev with
  | nil =>
    rw [received_nil]
    exact .pure fun h htalking => ⟨rfl, htalking⟩
  | cons byte bytes ih =>
    have hrest : ∀ d, t = some d → (received dev t [byte] d).ackEnabled = true :=
      fun d hd => (received_apply [byte] d).2.trans (ht d hd)
    refine .bind (.bind checkAttached_talking fun _ => controllerWrite_spec ht byte) fun ack => ?_
    refine .of_fact fun hack => .bind (ih hrest) fun acks => .pure ?_
    rintro h ⟨rfl, htalking⟩
    rw [received_cons] at htalking
    exact ⟨by rw [hack]; rfl, htalking⟩

theorem endTransmission_spec : Method.Triple (Talking l dev q t) endTransmission
    fun ack h => ack = t.isSome ∧ Idle l dev q h := by
  refine .bind checkAttached_talking fun _ => .get_bind fun h htalking => ?_
  have hstop : Method.Triple (· = h) stop fun _ h => Idle l dev q h :=
    stop_spec.conseq (fun h' heq => heq ▸ htalking) fun _ _ h => h
  exact .bind hstop fun _ => .pure fun h' hidle => ⟨htalking.lastAck, hidle⟩

/-- Only the target receives the bytes, and its acknowledgements are the only ones. -/
theorem transmit_spec (ha : a.toNat < 128) (bytes : List UInt8) :
    Method.Triple (Idle l dev q) (transmit a bytes) fun r h =>
      r = ((target l dev a).isSome, bytes.map (fun _ => (target l dev a).isSome),
        (target l dev a).isSome) ∧ Idle l (received dev (target l dev a) bytes) q h := by
  have htarget (d : D) (hd : target l dev a = some d) : (dev d).ackEnabled = true :=
    (Option.filter_eq_some_iff.1 hd).2
  have hbegin : Method.Triple (Idle l dev q) (beginTransmission a) fun ack h =>
      ack = (target l dev a).isSome ∧ Talking l dev q (target l dev a) h :=
    .bind checkAttached_idle fun _ => .bind (setSlaveAddress_spec ha) fun _ => start_spec false
  refine .bind hbegin fun begun => .of_fact fun hbegun => ?_
  refine .bind (writeBytes_spec htarget bytes) fun acks => .of_fact fun hacks => ?_
  refine .bind endTransmission_spec fun ended => .pure ?_
  rintro h ⟨hended, hidle⟩
  exact ⟨by rw [hbegun, hacks, hended], hidle⟩

/-! ### Reading -/

/-- The devices after `n` responses of the device `d`. -/
def responded (dev : D → SimulatedI2CDevice) (d : D) (n : ℕ) : D → SimulatedI2CDevice :=
  Function.update dev d { dev d with responseQueue := (dev d).responseQueue.drop n }

theorem responded_zero (dev : D → SimulatedI2CDevice) (d : D) : responded dev d 0 = dev := by
  simp [responded]

theorem responded_succ (dev : D → SimulatedI2CDevice) (d : D) (n : ℕ) :
    responded (Function.update dev d (dev d).onRead.2) d n = responded dev d (n + 1) := by
  cases hqueue : (dev d).responseQueue <;> simp [responded, SimulatedI2CDevice.onRead, hqueue]

theorem controllerRead_spec (d : D) : Method.Triple (Talking l dev q (some d)) controllerRead
    fun byte h => byte = (dev d).onRead.1 ∧
      Talking l (Function.update dev d (dev d).onRead.2) q (some d) h := by
  rintro h ⟨hattached, henabled, hrx, hbusy, hactive, hlast, rfl, rfl, rfl⟩
  have hcall := call_onController (fun device => .readByte fun d => (device d).onRead.1) h
  rw [I2CController.returned, I2CController.perform, I2CController.calls, I2CController.readByte,
    I2CController.readByteCalls, if_neg (not_not.2 henabled), if_neg (not_not.2 henabled), hrx,
    hactive] at hcall
  dsimp only at hcall
  rw [if_neg (not_not.2 hbusy), if_neg (not_not.2 hbusy)] at hcall
  exact ⟨_, _, Method.call_bind_ok _ _ _ _ hcall, rfl, hattached, henabled, rfl, hbusy, rfl, hlast,
    rfl, rfl, rfl⟩

/-- The loop of `requestFrom` appends the responses of the device to the queue. -/
theorem fill_spec (d : D) (n : ℕ) (count : UInt64) :
    Method.Triple (Talking l dev q (some d)) (fill n count) fun r h =>
      r = count + .ofNat n ∧
        Talking l (responded dev d n) (q ++ (dev d).responses n) (some d) h := by
  induction n generalizing dev q count with
  | zero =>
    refine .pure fun h htalking => ⟨(UInt64.add_zero count).symm, ?_⟩
    have hnone : (dev d).responses 0 = [] := by simp [SimulatedI2CDevice.responses]
    rw [responded_zero, hnone, List.append_nil]
    exact htalking
  | succ n ih =>
    refine .bind (controllerRead_spec d) fun byte => .of_fact fun hbyte => ?_
    have hpush : Method.Triple (Talking l (Function.update dev d (dev d).onRead.2) q (some d))
        (modify fun h => { h with rxQueue := h.rxQueue ++ [byte] })
        fun _ h => Talking l (Function.update dev d (dev d).onRead.2) (q ++ [byte]) (some d) h :=
      .modifying fun h ht => ⟨ht.attached, ht.enabled, ht.rxBuffer, ht.busy, ht.active, ht.lastAck,
        ht.devices, ht.device, congrArg (· ++ [byte]) ht.rxQueue⟩
    refine .bind hpush fun _ => (ih (count + 1)).conseq (fun _ h => h) ?_
    rintro r h ⟨rfl, htalking⟩
    have hcount : count + 1 + UInt64.ofNat n = count + UInt64.ofNat (n + 1) := by
      rw [UInt64.ofNat_add, UInt64.add_assoc, UInt64.add_comm (.ofNat n)]
      rfl
    refine ⟨hcount, ?_⟩
    rw [responded_succ, Function.update_self, List.append_assoc, hbyte] at htalking
    rw [SimulatedI2CDevice.responses_succ]
    exact htalking

omit [DecidableEq D] in
theorem clear_spec : Method.Triple (Idle l dev q) (modify fun h => { h with rxQueue := [] })
    fun _ h => Idle l dev [] h :=
  .modifying fun _ hi =>
    ⟨hi.attached, hi.enabled, hi.rxBuffer, hi.busy, hi.devices, hi.device, rfl⟩

/-- The target, if there is one, fills the queue. -/
theorem requestFrom_spec (ha : a.toNat < 128) {d : D} (hd : target l dev a = some d) (n : UInt64) :
    Method.Triple (Idle l dev q) (requestFrom a n) fun r h =>
      r = n ∧ Idle l (responded dev d n.toNat) ((dev d).responses n.toNat) h := by
  refine .bind checkAttached_idle fun _ => .bind clear_spec fun _ => ?_
  refine .bind (setSlaveAddress_spec ha) fun _ => .bind (start_spec true) fun ack => ?_
  rw [hd]
  refine .of_fact fun hack => ?_
  rw [hack, if_neg (by simp)]
  refine .bind (fill_spec d n.toNat 0) fun count => .of_fact fun hcount => ?_
  refine .bind stop_spec fun _ => .pure fun h hidle => ⟨?_, hidle⟩
  rw [hcount, UInt64.ofNat_toNat, UInt64.zero_add]

theorem requestFrom_none (ha : a.toNat < 128) (hd : target l dev a = none) (n : UInt64) :
    Method.Triple (Idle l dev q) (requestFrom a n) fun r h => r = 0 ∧ Idle l dev [] h := by
  refine .bind checkAttached_idle fun _ => .bind clear_spec fun _ => ?_
  refine .bind (setSlaveAddress_spec ha) fun _ => .bind (start_spec true) fun ack => ?_
  rw [hd]
  refine .of_fact fun hack => ?_
  rw [hack, if_pos (by simp)]
  exact .bind stop_spec fun _ => .pure fun h hidle => ⟨rfl, hidle⟩

/-- The bytes of the queue are read in their order. -/
theorem readBytes_spec (bytes : List UInt8) :
    Method.Triple (Idle l dev (bytes ++ q)) (readBytes bytes.length) fun r h =>
      r = bytes ∧ Idle l dev q h := by
  induction bytes with
  | nil => exact .pure fun h hidle => ⟨rfl, hidle⟩
  | cons byte bytes ih =>
    have hread : Method.Triple (Idle l dev (byte :: bytes ++ q)) readByte fun r h =>
        r = byte ∧ Idle l dev (bytes ++ q) h := by
      refine .get_bind fun h hidle => ?_
      rw [hidle.rxQueue]
      refine .bind (Q := fun _ => Idle l dev (bytes ++ q)) (.modifying ?_) fun _ => .pure ?_
      · rintro _ rfl
        exact ⟨hidle.attached, hidle.enabled, hidle.rxBuffer, hidle.busy, hidle.devices,
          hidle.device, rfl⟩
      · exact fun h hidle => ⟨rfl, hidle⟩
    refine .bind hread fun r => .of_fact fun hr => .bind ih fun rs => .pure ?_
    rintro h ⟨rfl, hidle⟩
    exact ⟨by rw [hr], hidle⟩

/-- Reading from an empty queue outside of a transaction throws, and changes nothing. -/
theorem call_readByte_empty {h : I2CHAL D} (hidle : Idle l dev [] h) :
    readByte.call h = (.error "I2C RX buffer empty", h) := by
  obtain ⟨hattached, henabled, hrx, hbusy, -, -, hqueue⟩ := hidle
  have hbusy' : ¬ h.controller.busy = true := by
    rw [hbusy]
    exact Bool.false_ne_true
  have hcall := call_onController (fun device => .readByte fun d => (device d).onRead.1) h
  have hthrows : controllerRead.call h = (.error "I2C RX buffer empty", h) := by
    rw [I2CController.returned, I2CController.perform, I2CController.calls, I2CController.readByte,
      I2CController.readByteCalls, if_neg (not_not.2 henabled), if_neg (not_not.2 henabled), hrx]
      at hcall
    refine Method.call_bind_error _ _ _ _ (hcall.trans ?_)
    cases h.controller.activeDevice with
    | none => rfl
    | some d =>
      dsimp only
      rw [if_pos hbusy', if_pos hbusy']
      rfl
  have hcheck : checkAttached.call h = (.ok (), h) := by
    rw [checkAttached, Method.call_throwIf, hattached]
    rfl
  rw [readByte, Method.call_bind_ok _ _ _ _ (Method.call_get h), hqueue]
  exact (Method.call_bind_ok _ _ _ _ hcheck).trans hthrows

theorem readBytes_empty {h : I2CHAL D} (hidle : Idle l dev [] h) (n : ℕ) :
    ((readBytes n).call h).2 = h := by
  cases n with
  | zero => rfl
  | succ n =>
    rw [readBytes, Method.call_bind_error _ _ _ _ (call_readByte_empty hidle)]

/-! ### A whole transaction -/

/-- A HAL object with an enabled controller that is idle, whatever a program has done before. -/
structure Ready (h : I2CHAL D) : Prop where
  attached : h.attached = true
  reachable : ∃ baseAddress defaultSlaveAddress, (I2CController.programs D).Reachable
    (.new baseAddress defaultSlaveAddress) h.controller
  enabled : h.controller.enabled = true
  idle : h.controller.busy = false

theorem Ready.toIdle {h : I2CHAL D} (hready : h.Ready) :
    Idle h.controller.devices h.device h.rxQueue h := by
  obtain ⟨baseAddress, defaultSlaveAddress, hreach⟩ := hready.reachable
  exact ⟨hready.attached, hready.enabled, I2CController.rxBuffer_of_programs hreach, hready.idle,
    rfl, rfl, rfl⟩

theorem target_received (bytes : List UInt8) :
    target l (received dev t bytes) a = target l dev a := by
  have haddress (d : D) : (received dev t bytes d).address = (dev d).address :=
    (received_apply bytes d).1
  have hack (d : D) : (received dev t bytes d).ackEnabled = (dev d).ackEnabled :=
    (received_apply bytes d).2
  simp only [target, haddress, hack]

theorem responded_received (bytes : List UInt8) (d : D) (n : ℕ) :
    responded (received dev (some d) bytes) d n = Function.update dev d { dev d with
      receivedBytes := (dev d).receivedBytes ++ bytes
      responseQueue := (dev d).responseQueue.drop n } := by
  simp [responded, received]

theorem responses_received (bytes : List UInt8) (d : D) (n : ℕ) :
    (received dev (some d) bytes d).responses n = (dev d).responses n := by
  simp [received, SimulatedI2CDevice.responses]

/-- **Transactions.**  Bytes are sent to an address, and others are requested from it and read.  The
first device with the address takes part if it acknowledges, and no other device does. -/
theorem transaction {h : I2CHAL D} (hready : h.Ready) {a : UInt8} (ha : a.toNat < 128)
    (bytes : List UInt8) (n : UInt64) :
    let first := h.controller.devices.find? fun d => (h.device d).address = a
    ∃ h₁ h₂, h₁.controller.busy = false ∧ h₂.controller.busy = false ∧
      (∀ d, first = some d → (h.device d).ackEnabled = true →
        (transmit a bytes).call h = (.ok (true, bytes.map fun _ => true, true), h₁) ∧
        (requestFrom a n).call h₁ = (.ok n, h₂) ∧
        ((readBytes n.toNat).call h₂).1 = .ok ((h.device d).responses n.toNat) ∧
        ((readBytes n.toNat).call h₂).2.device = Function.update h.device d { h.device d with
          receivedBytes := (h.device d).receivedBytes ++ bytes
          responseQueue := (h.device d).responseQueue.drop n.toNat }) ∧
      ((∀ d, first = some d → (h.device d).ackEnabled = false) →
        (transmit a bytes).call h = (.ok (false, bytes.map fun _ => false, false), h₁) ∧
        (requestFrom a n).call h₁ = (.ok 0, h₂) ∧ h₂.available = 0 ∧
        h₂.device = h.device ∧ ((readBytes n.toNat).call h₂).2 = h₂) := by
  intro first
  obtain ⟨r, h₁, hsent, rfl, hidle₁⟩ := transmit_spec ha bytes h hready.toIdle
  -- the device that is reached: the first one with the address, if it acknowledges
  set t := target h.controller.devices h.device a with ht
  have hfilter : t = first.filter fun d => (h.device d).ackEnabled := rfl
  have hkept : target h.controller.devices (received h.device t bytes) a = t :=
    target_received bytes
  cases hfirst : t with
  | some d =>
    rw [hfirst] at hsent hidle₁ hkept
    obtain ⟨hd, hack⟩ := Option.filter_eq_some_iff.1 (hfilter.symm.trans hfirst)
    obtain ⟨_, h₂, hrequested, hcount, hidle₂⟩ := requestFrom_spec ha hkept n h₁ hidle₁
    rw [hcount] at hrequested
    rw [responded_received, responses_received] at hidle₂
    rw [← List.append_nil ((h.device d).responses n.toNat)] at hidle₂
    have hread := readBytes_spec ((h.device d).responses n.toNat) h₂ hidle₂
    rw [SimulatedI2CDevice.length_responses] at hread
    obtain ⟨_, h₃, hread, rfl, hidle₃⟩ := hread
    refine ⟨h₁, h₂, hidle₁.busy, hidle₂.busy, fun d' hd' _ => ?_, fun hnone => ?_⟩
    · obtain rfl : d = d' := Option.some.inj (hd.symm.trans hd')
      rw [hread]
      exact ⟨hsent, hrequested, rfl, hidle₃.device⟩
    · rw [hnone d hd] at hack
      cases hack
  | none =>
    rw [hfirst] at hsent hidle₁ hkept
    obtain ⟨_, h₂, hrequested, rfl, hidle₂⟩ := requestFrom_none ha hkept n h₁ hidle₁
    refine ⟨h₁, h₂, hidle₁.busy, hidle₂.busy, fun d hd hack => ?_, fun _ => ?_⟩
    · have hsome : t = some d := hfilter.trans (Option.filter_eq_some_iff.2 ⟨hd, hack⟩)
      cases hfirst.symm.trans hsome
    · have havailable : h₂.available = 0 := by rw [available, hidle₂.rxQueue, List.length_nil]
      exact ⟨hsent, hrequested, havailable, hidle₂.device, readBytes_empty hidle₂ _⟩

/-- Two devices with the address 0x50: only the first one is reached. -/
theorem transaction_twoDevices :
    let first : SimulatedI2CDevice := ⟨0x50, 0xFF, true, [0x12], []⟩
    let second : SimulatedI2CDevice := ⟨0x50, 0, true, [], []⟩
    let device (second? : Bool) := if second? then second else first
    let c : I2CController Bool := { I2CController.new 0x4000 0x50 with devices := [false, true] }
    let h : I2CHAL Bool := ⟨true, [], c.enable, device⟩
    ∃ h₁ h₂, (transmit 0x50 [1, 2]).call h = (.ok (true, [true, true], true), h₁) ∧
      (requestFrom 0x50 2).call h₁ = (.ok 2, h₂) ∧
      ((readBytes 2).call h₂).1 = .ok [0x12, 0xFF] := by
  intro first second device c h
  have hrun : (I2CController.programs Bool).Reachable (.new 0x4000 0x50) c.enable :=
    ⟨[.operation (.attachDevice (some false)), .operation (.attachDevice (some true)),
      .operation .enable], .cons rfl (.cons rfl (.single rfl))⟩
  obtain ⟨h₁, h₂, -, -, hfirst, -⟩ := transaction (h := h)
    ⟨rfl, ⟨0x4000, 0x50, hrun⟩, by decide, rfl⟩ (a := 0x50) (by decide) [1, 2] 2
  obtain ⟨hsent, hrequested, hread, -⟩ := hfirst false rfl rfl
  exact ⟨h₁, h₂, hsent, hrequested, hread⟩

end I2CHAL

end Hal

end EFS
