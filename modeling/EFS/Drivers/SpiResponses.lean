import EFS.Data.Method
import EFS.Drivers.Operations
import EFS.LTS.Histories

/-!
# The responses of an SPI slave

`writeByte` queues the response of the slave, `transfer` leaves it in the data register only, and
`readByte` returns the queued bytes first.  The program is owed each response of a `writeByte` once,
and that of a `transfer` until a later exchange has replaced it.

* `call_body` : the operations, statement by statement, do what `perform` says.
* `Reads` : what the controller gives to a program that reads until an exception.
* `Owed` : the responses that the program has not been given.
* `owed_kept_iff_allowed` : the program can read what it is owed, unless there is a `transfer` while
  a response is queued.
-/

namespace EFS

namespace Drivers

open EFS.Mmio

namespace SPIController

/-! ### Statement by statement -/

/-- The bodies of the operations.  The result is the byte that `transfer` or `readByte` returns. -/
def body : Op → Method SPIController (Option UInt8)
  | .enable => do
    modify fun c => { c with
      controlRegister := c.controlRegister.write (c.controlRegister.read ||| ctrlEnableBit) }
    modify updateStatusRegister
    return none
  | .disable => do
    modify fun c => { c with
      controlRegister := c.controlRegister.write (c.controlRegister.read &&& ~~~ctrlEnableBit) }
    modify updateStatusRegister
    return none
  | .transfer respond byte => do
    Method.throwIf (fun c => ¬ c.enabled) "SPI is disabled"
    modify fun c => { c with busy := true }
    modify updateStatusRegister
    let c ← get
    let rxByte := c.exchange respond byte
    modify fun c => { c with dataRegister := c.dataRegister.write rxByte.toUInt32 }
    modify fun c => { c with rxHasData := true }
    modify fun c => { c with busy := false }
    modify updateStatusRegister
    return some rxByte
  | .writeByte respond byte => do
    Method.throwIf (fun c => ¬ c.enabled) "SPI is disabled"
    modify fun c => { c with busy := true }
    modify updateStatusRegister
    let c ← get
    let rxByte := c.exchange respond byte
    modify fun c => { c with dataRegister := c.dataRegister.write rxByte.toUInt32 }
    modify fun c => { c with rxBuffer := c.rxBuffer ++ [rxByte] }
    modify fun c => { c with rxHasData := true }
    modify fun c => { c with busy := false }
    modify updateStatusRegister
    return none
  | .readByte => do
    Method.throwIf (fun c => ¬ c.enabled) "SPI is disabled"
    Method.throwIf (fun c => c.rxBuffer.isEmpty ∧ ¬ c.rxHasData) "SPI RX buffer empty"
    let c ← get
    let rx := if ¬ c.rxBuffer.isEmpty then c.rxBuffer.headD 0 else c.dataRegister.read.toUInt8
    modify fun c =>
      if ¬ c.rxBuffer.isEmpty then { c with rxBuffer := c.rxBuffer.tail }
      else { c with rxHasData := false }
    modify fun c => if c.rxBuffer.isEmpty then { c with rxHasData := false } else c
    modify updateStatusRegister
    return some rx
  | .setClockDivider value => do
    Method.throwIf (fun _ => value = 0) "Clock divider cannot be 0"
    modify fun c => { c with clockDivRegister := c.clockDivRegister.write value }
    return none
  | .setMode mode => do
    Method.throwIf (fun _ => 3 < mode) "Invalid SPI mode"
    modify fun c => c.withMode mode
    return none
  | .setSlave slave => do
    modify fun c => { c with slave }
    return none
  | .reset => do
    modify SPIController.reset
    return none

/-- What an operation returns. -/
def returned (c : SPIController) : Op → Except String (Option UInt8)
  | .transfer respond byte => (c.transfer respond byte).map fun r => some r.1
  | .writeByte respond byte => (c.writeByte respond byte).map fun _ => none
  | .readByte => c.readByte.map fun r => some r.1
  | .setClockDivider value => (c.setClockDivider value).map fun _ => none
  | .setMode mode => (c.setMode mode).map fun _ => none
  | .enable | .disable | .setSlave _ | .reset => .ok none

theorem call_body (c : SPIController) (o : Op) : (body o).call c = (c.returned o, c.perform o) := by
  cases o with
  | enable | disable | setSlave slave | reset => rfl
  | transfer respond byte | writeByte respond byte =>
    by_cases h : c.enabled = true
    · simp [body, returned, perform, transfer, writeByte, h, Except.map, afterCall, unlessThrows]
    · simp [body, returned, perform, transfer, writeByte, h, Except.map, afterCall, unlessThrows]
  | setClockDivider value =>
    by_cases h : value = 0 <;>
      simp [body, returned, perform, setClockDivider, h, Except.map, unlessThrows]
  | setMode mode =>
    by_cases h : 3 < mode <;> simp [body, returned, perform, setMode, h, Except.map, unlessThrows]
  | readByte =>
    by_cases h : c.enabled = true
    · cases hbuffer : c.rxBuffer with
      | nil =>
        cases hdata : c.rxHasData <;>
          simp [body, returned, perform, readByte, h, hbuffer, hdata, Except.map, afterCall]
      | cons byte rest =>
        cases rest <;> simp [body, returned, perform, readByte, h, hbuffer, Except.map, afterCall]
    · simp [body, returned, perform, readByte, h, Except.map, afterCall]

/-! ### What the controller gives -/

/-- A program that reads until an exception is given these bytes. -/
inductive Reads : SPIController → List UInt8 → Prop
  | throws {c c' : SPIController} {e : String} :
    (body .readByte).call c = (.error e, c') → Reads c []
  | returns {c c' : SPIController} {byte : UInt8} {bytes : List UInt8} :
    (body .readByte).call c = (.ok (some byte), c') → Reads c' bytes → Reads c (byte :: bytes)

/-- The byte in the data register, if it is one that `readByte` returns. -/
def dataByte (c : SPIController) : Option UInt8 :=
  if c.rxBuffer = [] ∧ c.rxHasData = true then some c.dataRegister.read.toUInt8 else none

variable {c : SPIController}

theorem Reads.unique {bytes bytes' : List UInt8} (h : Reads c bytes) (h' : Reads c bytes') :
    bytes' = bytes := by
  induction h generalizing bytes' with
  | throws hcall =>
    cases h' with
    | throws => rfl
    | returns hcall' _ => cases hcall.symm.trans hcall'
  | returns hcall _ ih =>
    cases h' with
    | throws hcall' => cases hcall.symm.trans hcall'
    | returns hcall' hrest =>
      cases hcall.symm.trans hcall'
      rw [ih hrest]

/-- The controller after the first queued byte. -/
def popped (c : SPIController) (rest : List UInt8) : SPIController :=
  { c with
    rxBuffer := rest
    rxHasData := if rest.isEmpty then false else c.rxHasData }.updateStatusRegister

theorem call_readByte_cons (h : c.enabled = true) {byte : UInt8} {rest : List UInt8}
    (hbuffer : c.rxBuffer = byte :: rest) :
    (body .readByte).call c = (.ok (some byte), c.popped rest) := by
  rw [call_body]
  cases rest <;> simp [returned, perform, readByte, popped, h, hbuffer, Except.map, afterCall]

theorem call_readByte_data (h : c.enabled = true) (hbuffer : c.rxBuffer = [])
    (hdata : c.rxHasData = true) :
    (body .readByte).call c = (.ok (some c.dataRegister.read.toUInt8),
      { c with rxHasData := false }.updateStatusRegister) := by
  rw [call_body]
  simp [returned, perform, readByte, h, hbuffer, hdata, Except.map, afterCall]

theorem call_readByte_empty (h : c.enabled = true) (hbuffer : c.rxBuffer = [])
    (hdata : c.rxHasData = false) :
    (body .readByte).call c = (.error "SPI RX buffer empty", c) := by
  rw [call_body]
  simp [returned, perform, readByte, h, hbuffer, hdata, Except.map, afterCall]

theorem dataByte_cons {byte : UInt8} {rest : List UInt8} (h : c.rxBuffer = byte :: rest) :
    c.dataByte = none :=
  if_neg fun hempty => by rw [h] at hempty; cases hempty.1

theorem dataByte_popped (rest : List UInt8) : (c.popped rest).dataByte = none := by
  cases rest with
  | nil => exact if_neg fun h => Bool.false_ne_true h.2
  | cons byte rest => exact dataByte_cons rfl

/-- The queued bytes, and then the one in the data register unless some were queued. -/
theorem reads_buffer (h : c.enabled = true) : Reads c (c.rxBuffer ++ c.dataByte.toList) := by
  generalize hbuffer : c.rxBuffer = buffer
  induction buffer generalizing c with
  | nil =>
    cases hdata : c.rxHasData with
    | false =>
      have hnone : c.dataByte = none := if_neg fun hd => Bool.false_ne_true (hdata.symm.trans hd.2)
      rw [hnone]
      exact .throws (call_readByte_empty h hbuffer hdata)
    | true =>
      have hsome : c.dataByte = some c.dataRegister.read.toUInt8 := if_pos ⟨hbuffer, hdata⟩
      rw [hsome]
      exact .returns (call_readByte_data h hbuffer hdata)
        (.throws (call_readByte_empty h hbuffer rfl))
  | cons byte rest ih =>
    rw [dataByte_cons hbuffer]
    have hrest : Reads (c.popped rest) (rest ++ (c.popped rest).dataByte.toList) := ih h rfl
    rw [dataByte_popped] at hrest
    exact .returns (call_readByte_cons h hbuffer) hrest

theorem hasData_iff : c.hasData = true ↔ c.rxBuffer ++ c.dataByte.toList ≠ [] := by
  cases hbuffer : c.rxBuffer with
  | nil => cases hdata : c.rxHasData <;> simp [hasData, dataByte, hbuffer, hdata]
  | cons byte rest => simp [hasData, hbuffer]

/-- `readByte` of an enabled controller throws iff there are no data, and then changes nothing. -/
theorem readByte_throws_iff (h : c.enabled = true) :
    (((body .readByte).call c).1 = .error "SPI RX buffer empty" ↔ c.hasData = false) ∧
      (c.hasData = false → ((body .readByte).call c).2 = c) := by
  cases hbuffer : c.rxBuffer with
  | cons byte rest =>
    rw [call_readByte_cons h hbuffer]
    simp [hasData, hbuffer]
  | nil =>
    cases hdata : c.rxHasData with
    | false =>
      rw [call_readByte_empty h hbuffer hdata]
      simp [hasData, hbuffer, hdata]
    | true =>
      rw [call_readByte_data h hbuffer hdata]
      simp [hasData, hbuffer, hdata]

/-- The controller after an exchange whose response `queued` has been appended to the buffer. -/
def exchanged (c : SPIController) (queued : List UInt8) (response : UInt8) : SPIController :=
  { { c with busy := true }.updateStatusRegister with
    dataRegister := c.dataRegister.write response.toUInt32
    rxBuffer := c.rxBuffer ++ queued
    rxHasData := true
    busy := false }.updateStatusRegister

theorem call_writeByte (h : c.enabled = true) (respond : UInt8 → UInt8) (byte : UInt8) :
    (body (.writeByte respond byte)).call c =
      (.ok none, c.exchanged [c.exchange respond byte] (c.exchange respond byte)) := by
  rw [call_body, returned, perform, writeByte, if_neg (not_not.2 h)]
  rfl

theorem call_transfer (h : c.enabled = true) (respond : UInt8 → UInt8) (byte : UInt8) :
    (body (.transfer respond byte)).call c =
      (.ok (some (c.exchange respond byte)), c.exchanged [] (c.exchange respond byte)) := by
  rw [call_body, returned, perform, transfer, if_neg (not_not.2 h), exchanged, List.append_nil]
  rfl

theorem dataByte_exchanged (queued : List UInt8) (response : UInt8) :
    (c.exchanged queued response).dataByte =
      if c.rxBuffer ++ queued = [] then some response else none := by
  show (if c.rxBuffer ++ queued = [] ∧ true = true then some response.toUInt32.toUInt8 else none) =
    _
  simp

/-! ### What the program is owed -/

/-- The calls of a program that exchanges bytes with the slave. -/
inductive Call
  | writeByte (respond : UInt8 → UInt8) (byte : UInt8)
  | transfer (respond : UInt8 → UInt8) (byte : UInt8)
  | readByte

/-- The operation that a call performs. -/
def Call.op : Call → Op
  | .writeByte respond byte => .writeByte respond byte
  | .transfer respond byte => .transfer respond byte
  | .readByte => .readByte

/-- The responses that the program has not been given: those of `writeByte`, and that of the last
exchange if it was a `transfer`. -/
structure Owed where
  queued : List UInt8
  last : Option UInt8

/-- The bytes owed, in the order in which they are read. -/
def Owed.bytes (o : Owed) : List UInt8 := o.queued ++ o.last.toList

/-- A controller and what its program has got: of the responses `written` of the `writeByte` calls
`readByte` has returned `taken`. -/
structure Session where
  controller : SPIController
  owed : Owed
  written : List UInt8
  taken : List UInt8

namespace Session

/-- A session that begins with the controller as it is. -/
def begin (c : SPIController) : Session := ⟨c, ⟨c.rxBuffer, c.dataByte⟩, [], []⟩

/-- The session after a call, with what the calls have delivered and still owe. -/
def after (s : Session) (l : Call) : Session :=
  let called := (body l.op).call s.controller
  match l with
  | .writeByte respond byte =>
    let response := s.controller.exchange respond byte
    { s with
      controller := called.2
      owed := ⟨s.owed.queued ++ [response], none⟩
      written := s.written ++ [response] }
  | .transfer respond byte =>
    { s with
      controller := called.2
      owed := ⟨s.owed.queued, some (s.controller.exchange respond byte)⟩ }
  | .readByte =>
    match s.owed.queued with
    | [] => { s with controller := called.2, owed := ⟨[], none⟩ }
    | _ :: rest =>
      { s with
        controller := called.2
        owed := ⟨rest, s.owed.last⟩
        taken := s.taken ++ (called.1.toOption.bind id).toList }

end Session

/-- The runs of a session. -/
def sessions : LTS Session Call where
  step s l t := t = s.after l

namespace Session

/-- The program can read all that it is owed. -/
structure Kept (s : Session) : Prop where
  reads : Reads s.controller s.owed.bytes
  hasData : s.controller.hasData = true ↔ s.owed.bytes ≠ []

/-- No `transfer` while a response is queued. -/
def allows (s : Session) : Call → Prop
  | .transfer _ _ => s.controller.rxBuffer = []
  | .writeByte _ _ | .readByte => True

/-- The buffer holds the responses that are owed to the `writeByte` calls since `c`. -/
structure Queued (c : SPIController) (s : Session) : Prop where
  enabled : s.controller.enabled = true
  queued : s.owed.queued = s.controller.rxBuffer
  taken : s.taken ++ s.controller.rxBuffer = c.rxBuffer ++ s.written

theorem queued_begin (h : c.enabled = true) : Queued c (begin c) :=
  ⟨h, rfl, (List.append_nil _).symm⟩

theorem after_readByte_cons {s : Session} (h : s.controller.enabled = true)
    (hqueued : s.owed.queued = s.controller.rxBuffer) {byte : UInt8} {rest : List UInt8}
    (hbuffer : s.controller.rxBuffer = byte :: rest) :
    s.after .readByte = { s with
      controller := s.controller.popped rest
      owed := ⟨rest, s.owed.last⟩
      taken := s.taken ++ [byte] } := by
  simp only [after, Call.op]
  rw [call_readByte_cons h hbuffer, hqueued, hbuffer]
  rfl

/-- A `readByte` while none is queued: it returns the byte in the data register, or throws. -/
theorem after_readByte_nil {s : Session} (h : s.controller.enabled = true)
    (hqueued : s.owed.queued = s.controller.rxBuffer) (hbuffer : s.controller.rxBuffer = []) :
    ∃ c' : SPIController, c'.enabled = true ∧ c'.rxBuffer = [] ∧ c'.rxHasData = false ∧
      s.after .readByte = { s with controller := c', owed := ⟨[], none⟩ } := by
  simp only [after, Call.op]
  rw [hqueued, hbuffer]
  cases hdata : s.controller.rxHasData with
  | false =>
    rw [call_readByte_empty h hbuffer hdata]
    exact ⟨_, h, hbuffer, hdata, rfl⟩
  | true =>
    rw [call_readByte_data h hbuffer hdata]
    exact ⟨{ s.controller with rxHasData := false }.updateStatusRegister, h, hbuffer, rfl, rfl⟩

theorem Queued.after {s : Session} (h : Queued c s) (l : Call) : Queued c (s.after l) := by
  obtain ⟨henabled, hqueued, htaken⟩ := h
  cases l with
  | writeByte respond byte =>
    rw [Session.after, Call.op, call_writeByte henabled]
    refine ⟨henabled, congrArg (· ++ _) hqueued, ?_⟩
    show s.taken ++ (s.controller.rxBuffer ++ _) = c.rxBuffer ++ (s.written ++ _)
    rw [← List.append_assoc, htaken, List.append_assoc]
  | transfer respond byte =>
    rw [Session.after, Call.op, call_transfer henabled]
    refine ⟨henabled, hqueued.trans (List.append_nil _).symm, ?_⟩
    show s.taken ++ (s.controller.rxBuffer ++ []) = c.rxBuffer ++ s.written
    rw [List.append_nil, htaken]
  | readByte =>
    cases hbuffer : s.controller.rxBuffer with
    | cons byte rest =>
      rw [after_readByte_cons henabled hqueued hbuffer]
      refine ⟨henabled, rfl, ?_⟩
      show (s.taken ++ [byte]) ++ rest = c.rxBuffer ++ s.written
      rw [← htaken, hbuffer, List.append_assoc]
      rfl
    -- the byte comes from the data register, and the buffer stays empty
    | nil =>
      obtain ⟨c', henabled', hbuffer', -, hafter⟩ := after_readByte_nil henabled hqueued hbuffer
      rw [hafter]
      refine ⟨henabled', hbuffer'.symm, ?_⟩
      rw [hbuffer', ← hbuffer]
      exact htaken

/-- Nothing is owed but what the controller holds. -/
structure Settled (s : Session) : Prop where
  enabled : s.controller.enabled = true
  queued : s.owed.queued = s.controller.rxBuffer
  last : s.owed.last = s.controller.dataByte

theorem Settled.kept {s : Session} (h : Settled s) : Kept s := by
  have hbytes : s.owed.bytes = s.controller.rxBuffer ++ s.controller.dataByte.toList := by
    rw [Owed.bytes, h.queued, h.last]
  exact ⟨hbytes ▸ reads_buffer h.enabled, hbytes ▸ hasData_iff⟩

theorem Settled.after {s : Session} (h : Settled s) {l : Call} (hallows : s.allows l) :
    Settled (s.after l) := by
  obtain ⟨henabled, hqueued, hlast⟩ := h
  cases l with
  | writeByte respond byte =>
    rw [Session.after, Call.op, call_writeByte henabled]
    refine ⟨henabled, congrArg (· ++ _) hqueued, ?_⟩
    rw [dataByte_exchanged, if_neg (List.append_ne_nil_of_right_ne_nil _ (List.cons_ne_nil _ _))]
  | transfer respond byte =>
    rw [Session.after, Call.op, call_transfer henabled]
    refine ⟨henabled, hqueued.trans (List.append_nil _).symm, ?_⟩
    have hempty : s.controller.rxBuffer = [] := hallows
    rw [dataByte_exchanged, List.append_nil, if_pos hempty]
  | readByte =>
    cases hbuffer : s.controller.rxBuffer with
    | cons byte rest =>
      rw [after_readByte_cons henabled hqueued hbuffer]
      refine ⟨henabled, rfl, ?_⟩
      rw [dataByte_popped]
      exact hlast.trans (dataByte_cons hbuffer)
    | nil =>
      obtain ⟨c', henabled', hbuffer', hdata, hafter⟩ :=
        after_readByte_nil henabled hqueued hbuffer
      rw [hafter]
      refine ⟨henabled', hbuffer'.symm, (if_neg ?_).symm⟩
      rintro ⟨-, htrue⟩
      exact Bool.false_ne_true (hdata.symm.trans htrue)

/-- A `transfer` while a response is queued is lost. -/
theorem Settled.not_kept {s : Session} (h : Settled s) {l : Call} (hallows : ¬ s.allows l) :
    ¬ Kept (s.after l) := by
  cases l with
  | writeByte respond byte => exact absurd trivial hallows
  | readByte => exact absurd trivial hallows
  | transfer respond byte =>
    intro hkept
    have hreads := hkept.reads
    rw [Session.after, Call.op, call_transfer h.enabled] at hreads
    have hbuffer := reads_buffer
      (c := s.controller.exchanged [] (s.controller.exchange respond byte)) h.enabled
    have hne : ¬ s.controller.rxBuffer ++ [] = [] := by
      rw [List.append_nil]
      exact hallows
    rw [dataByte_exchanged, if_neg hne] at hbuffer
    have hlength := congrArg List.length (hbuffer.unique hreads)
    simp [Owed.bytes, exchanged, updateStatusRegister, h.queued] at hlength

end Session

/-- The responses of `writeByte` are returned in their order, each once; and what is owed can be
read throughout iff there is no `transfer` while a response is queued. -/
theorem owed_kept_iff_allowed (c : SPIController) (h : c.enabled = true) (ls : List Call) :
    (sessions.Throughout Session.Kept (.begin c) ls ↔
        sessions.Allowed Session.allows (.begin c) ls) ∧
      (∀ s, sessions.Run (.begin c) ls s →
        s.taken ++ s.controller.rxBuffer = c.rxBuffer ++ s.written) ∧
      ∀ s, sessions.Run (.begin c) ls s →
        (((body .readByte).call s.controller).1 = .error "SPI RX buffer empty" ↔
            s.controller.hasData = false) ∧
          (s.controller.hasData = false →
            ((body .readByte).call s.controller).2 = s.controller) := by
  have hqueued (s : Session) (hrun : sessions.Run (.begin c) ls s) : Session.Queued c s :=
    hrun.invariant (Session.queued_begin h) fun s l t hs hstep => hstep ▸ hs.after l
  refine ⟨?_, fun s hrun => (hqueued s hrun).taken,
    fun s hrun => readByte_throws_iff (hqueued s hrun).enabled⟩
  exact LTS.throughout_iff_allowed (I := Session.Settled) (fun s l => ⟨_, rfl⟩) ⟨h, rfl, rfl⟩
    (fun s hs => hs.kept) (fun s l t hs hstep hallows => hstep ▸ hs.after hallows)
    fun s l t hs hstep hallows => hstep ▸ hs.not_kept hallows

/-- A new controller that has been enabled and given a slave. -/
def wired : SPIController :=
  let c : SPIController := ⟨0x2000, .new 0, .new 0, .new 0, .new 4, false, [], false, false⟩
  (c.withMode 0).updateStatusRegister.enable.setSlave true

example : (new 0x2000 4 0).map (fun c => c.enable.setSlave true) = .ok wired := rfl

/-- Every response is read before the next `transfer`. -/
theorem owed_kept_wired : sessions.Throughout Session.Kept (.begin wired)
    [.transfer id 1, .readByte, .writeByte id 2, .writeByte id 3, .readByte] := by
  refine (owed_kept_iff_allowed wired rfl _).1.2 (.cons rfl ?_)
  rintro - rfl
  refine .cons trivial fun _ _ => .cons trivial fun _ _ => ?_
  exact .cons trivial fun _ _ => .cons trivial fun _ _ => .nil

/-- The response of a `transfer` while another one is queued is lost: after one `readByte` there are
no data left. -/
theorem not_kept_wired :
    ¬ sessions.Throughout Session.Kept (.begin wired) [.writeByte id 1, .transfer id 2, .readByte] ∧
      ∃ s, sessions.Run (.begin wired) [.writeByte id 1, .transfer id 2, .readByte] s ∧
        s.owed.bytes = [2] ∧ s.controller.hasData = false := by
  have hrun : ∃ s, sessions.Run (.begin wired) [.writeByte id 1, .transfer id 2, .readByte] s ∧
      s.owed.bytes = [2] ∧ s.controller.hasData = false :=
    ⟨_, .cons rfl (.cons rfl (.cons rfl (.nil _))), by decide, by decide⟩
  refine ⟨fun h => ?_, hrun⟩
  obtain ⟨s, hrun, howed, hdata⟩ := hrun
  have hkept := h _ s (List.prefix_refl _) hrun
  have hreadable := hkept.hasData.2 (by rw [howed]; exact List.cons_ne_nil _ _)
  exact Bool.false_ne_true (hdata.symm.trans hreadable)

end SPIController

end Drivers

end EFS
