import EFS.Data.Method
import EFS.Drivers.DmaUart
import EFS.Drivers.Operations
import EFS.LTS.Histories
import Mathlib.Data.List.DropRight

/-!
# The byte streams of a UART

A run records what each call has returned.  Since the last reset no byte was lost, doubled or moved
in either direction, whatever calls have failed in between.

* `call_body` : the operations, statement by statement, do what `perform` says.
* `atomic_body` : an operation that throws does so before its first change.
* `streams_conserved` : the two FIFOs against the bytes accepted and returned.
-/

namespace EFS

namespace Drivers

open EFS.Mmio

namespace UART

/-! ### Statement by statement -/

/-- The bodies of the operations.  The result is the byte that `readByte` or `popTxByte` returns. -/
def body : Op → Method UART (Option UInt8)
  | .enable => do
    modify fun u => { u with
      controlRegister := u.controlRegister.write (u.controlRegister.read ||| ctrlEnableBit) }
    modify updateStatusRegister
    return none
  | .disable => do
    modify fun u => { u with
      controlRegister := u.controlRegister.write (u.controlRegister.read &&& ~~~ctrlEnableBit) }
    modify updateStatusRegister
    return none
  | .writeByte byte => do
    Method.throwIf (fun u => ¬ u.enabled) "UART is disabled"
    modify fun u => { u with txFifo := u.txFifo ++ [byte] }
    modify fun u => { u with dataRegister := u.dataRegister.write byte.toUInt32 }
    modify updateStatusRegister
    return none
  | .readByte => do
    Method.throwIf (fun u => ¬ u.enabled) "UART is disabled"
    Method.throwIf (fun u => u.rxFifo.isEmpty) "UART RX FIFO empty"
    let u ← get
    let byte := u.rxFifo.headD 0
    modify fun u => { u with rxFifo := u.rxFifo.tail }
    modify fun u => { u with dataRegister := u.dataRegister.write byte.toUInt32 }
    modify updateStatusRegister
    return some byte
  | .pushReceivedByte byte => do
    Method.throwIf (fun u => ¬ u.enabled) "UART is disabled"
    modify fun u => { u with rxFifo := u.rxFifo ++ [byte] }
    modify updateStatusRegister
    return none
  | .setBaudRate baud => do
    Method.throwIf (fun _ => baud = 0) "Baud rate cannot be 0"
    modify fun u => { u with baudRegister := u.baudRegister.write baud }
    return none
  | .popTxByte => do
    Method.throwIf (fun u => u.txFifo.isEmpty) "UART TX FIFO empty"
    let u ← get
    let byte := u.txFifo.headD 0
    modify fun u => { u with txFifo := u.txFifo.tail }
    modify updateStatusRegister
    return some byte
  | .reset => do
    modify disable
    modify fun u => { u with txFifo := [] }
    modify fun u => { u with rxFifo := [] }
    modify fun u => { u with dataRegister := u.dataRegister.reset }
    modify fun u => { u with controlRegister := u.controlRegister.reset }
    modify updateStatusRegister
    return none

/-- What an operation returns. -/
def returned (u : UART) : Op → Except String (Option UInt8)
  | .writeByte byte => (u.writeByte byte).map fun _ => none
  | .readByte => u.readByte.map fun r => some r.1
  | .pushReceivedByte byte => (u.pushReceivedByte byte).map fun _ => none
  | .setBaudRate baud => (u.setBaudRate baud).map fun _ => none
  | .popTxByte => u.popTxByte.map fun r => some r.1
  | .enable | .disable | .reset => .ok none

theorem call_body (u : UART) (o : Op) : (body o).call u = (u.returned o, u.perform o) := by
  cases o with
  | enable | disable | reset => rfl
  | writeByte byte | pushReceivedByte byte =>
    by_cases h : u.enabled = true
    · simp [body, returned, perform, writeByte, pushReceivedByte, h, Except.map, unlessThrows]
    · simp [body, returned, perform, writeByte, pushReceivedByte, h, Except.map, unlessThrows]
  | setBaudRate baud =>
    by_cases h : baud = 0 <;>
      simp [body, returned, perform, setBaudRate, h, Except.map, unlessThrows]
  | readByte =>
    by_cases h : u.enabled = true
    · cases hfifo : u.rxFifo with
      | nil => simp [body, returned, perform, readByte, h, hfifo, Except.map, afterCall]
      | cons byte rest => simp [body, returned, perform, readByte, h, hfifo, Except.map, afterCall]
    · simp [body, returned, perform, readByte, h, Except.map, afterCall]
  | popTxByte =>
    cases hfifo : u.txFifo with
    | nil => simp [body, returned, perform, popTxByte, hfifo, Except.map, afterCall]
    | cons byte rest => simp [body, returned, perform, popTxByte, hfifo, Except.map, afterCall]

theorem atomic_body (o : Op) : (body o).Atomic := by
  cases o with
  | enable | disable | reset =>
    exact .of_completes fun u => ⟨_, _, rfl⟩
  | writeByte byte | pushReceivedByte byte | setBaudRate baud =>
    exact .after_check Method.observes_throwIf fun _ => .of_completes fun u => ⟨_, _, rfl⟩
  | readByte =>
    exact .after_check Method.observes_throwIf fun _ =>
      .after_check Method.observes_throwIf fun _ => .of_completes fun u => ⟨_, _, rfl⟩
  | popTxByte =>
    exact .after_check Method.observes_throwIf fun _ => .of_completes fun u => ⟨_, _, rfl⟩

/-! ### Streams -/

/-- An operation and what it has returned. -/
abbrev Event := Op × Except String (Option UInt8)

/-- The runs of a UART, with the results of the calls. -/
def calls : LTS UART Event where
  step u l u' := (body l.1).call u = (l.2, u')

/-- The bytes accepted by `writeByte`. -/
def written (es : List Event) : List UInt8 :=
  es.filterMap fun
    | (.writeByte byte, .ok _) => some byte
    | _ => none

/-- The bytes accepted by `pushReceivedByte`. -/
def pushed (es : List Event) : List UInt8 :=
  es.filterMap fun
    | (.pushReceivedByte byte, .ok _) => some byte
    | _ => none

/-- The bytes returned by `popTxByte`. -/
def popped (es : List Event) : List UInt8 :=
  es.filterMap fun
    | (.popTxByte, .ok byte) => byte
    | _ => none

/-- The bytes returned by `readByte`. -/
def received (es : List Event) : List UInt8 :=
  es.filterMap fun
    | (.readByte, .ok byte) => byte
    | _ => none

/-- The call is `reset()`. -/
def Event.isReset : Event → Bool
  | (.reset, _) => true
  | _ => false

/-- The events since the last reset. -/
def sinceReset (es : List Event) : List Event := es.rtakeWhile fun e => ¬ e.isReset

/-- What a call other than `reset` does to the streams. -/
structure Moves (u : UART) (e : Event) (u' : UART) : Prop where
  tx : popped [e] ++ u'.txFifo = u.txFifo ++ written [e]
  rx : received [e] ++ u'.rxFifo = u.rxFifo ++ pushed [e]
  status : u.StatusMatches → u'.StatusMatches

theorem moves_error (u : UART) (o : Op) (e : String) : Moves u (o, .error e) u := by
  have hnone (l : List UInt8) : [] ++ l = l ++ [] := (List.append_nil l).symm
  cases o <;> exact ⟨hnone _, hnone _, id⟩

theorem moves (u : UART) {o : Op} (hreset : Event.isReset (o, u.returned o) = false) :
    Moves u (o, u.returned o) (u.perform o) := by
  -- a call that moves nothing through a FIFO
  have hnone (l : List UInt8) : [] ++ l = l ++ [] := (List.append_nil l).symm
  have hstatus := statusMatches_updateStatusRegister
  cases o with
  | reset => cases hreset
  | enable | disable => exact ⟨hnone _, hnone _, fun _ => hstatus _⟩
  | writeByte byte =>
    by_cases h : u.enabled = true
    · rw [returned, perform, writeByte, if_neg (not_not.2 h)]
      exact ⟨rfl, hnone _, fun _ => hstatus _⟩
    · rw [returned, perform, writeByte, if_pos h]
      exact u.moves_error _ _
  | pushReceivedByte byte =>
    by_cases h : u.enabled = true
    · rw [returned, perform, pushReceivedByte, if_neg (not_not.2 h)]
      exact ⟨hnone _, rfl, fun _ => hstatus _⟩
    · rw [returned, perform, pushReceivedByte, if_pos h]
      exact u.moves_error _ _
  | setBaudRate baud =>
    by_cases h : baud = 0
    · rw [returned, perform, setBaudRate, if_pos h]
      exact u.moves_error _ _
    · rw [returned, perform, setBaudRate, if_neg h]
      exact ⟨hnone _, hnone _, fun hs => ⟨hs.txEmpty, hs.rxAvail, hs.enabled⟩⟩
  | readByte =>
    by_cases h : u.enabled = true
    · rw [returned, perform, readByte, if_neg (not_not.2 h)]
      cases hfifo : u.rxFifo with
      | nil => exact u.moves_error _ _
      | cons byte rest => exact ⟨hnone _, by rw [hfifo]; exact hnone _, fun _ => hstatus _⟩
    · rw [returned, perform, readByte, if_pos h]
      exact u.moves_error _ _
  | popTxByte =>
    rw [returned, perform, popTxByte]
    cases hfifo : u.txFifo with
    | nil => exact u.moves_error _ _
    | cons byte rest => exact ⟨by rw [hfifo]; exact hnone _, hnone _, fun _ => hstatus _⟩

/-- No byte is lost, doubled or moved between its FIFO and the stream that it came from. -/
structure Conserved (es : List Event) (u : UART) : Prop where
  tx : popped (sinceReset es) ++ u.txFifo = written (sinceReset es)
  rx : received (sinceReset es) ++ u.rxFifo = pushed (sinceReset es)
  status : u.StatusMatches

theorem sinceReset_snoc (es : List Event) (e : Event) :
    sinceReset (es ++ [e]) = if e.isReset then [] else sinceReset es ++ [e] := by
  cases h : e.isReset <;> simp [sinceReset, h]

theorem conserved_new {baseAddress : Address} {defaultBaudRate : UInt32} {u : UART}
    (h : UART.new baseAddress defaultBaudRate = .ok u) : Conserved [] u := by
  unfold UART.new at h
  split_ifs at h
  obtain rfl := Except.ok.inj h
  exact ⟨rfl, rfl, statusMatches_updateStatusRegister _⟩

theorem Conserved.snoc {es : List Event} {e : Event} {u u' : UART} (h : Conserved es u)
    (hstep : calls.step u e u') : Conserved (es ++ [e]) u' := by
  obtain ⟨o, r⟩ := e
  obtain ⟨rfl, rfl⟩ := Prod.mk.inj ((u.call_body o).symm.trans hstep)
  cases hreset : Event.isReset (o, u.returned o) with
  | true =>
    obtain rfl : o = .reset := by
      cases o <;> first | rfl | cases hreset
    refine ⟨?_, ?_, statusMatches_updateStatusRegister _⟩
    · rw [sinceReset_snoc, hreset]
      rfl
    · rw [sinceReset_snoc, hreset]
      rfl
  | false =>
    have hmoves := u.moves hreset
    have hsince := sinceReset_snoc es (o, u.returned o)
    rw [hreset] at hsince
    refine ⟨?_, ?_, hmoves.status h.status⟩
    · rw [hsince]
      exact (congrArg (· ++ _) List.filterMap_append).trans
        ((append_passes h.tx hmoves.tx).trans List.filterMap_append.symm)
    · rw [hsince]
      exact (congrArg (· ++ _) List.filterMap_append).trans
        ((append_passes h.rx hmoves.rx).trans List.filterMap_append.symm)

theorem conserved_of_run {baseAddress : Address} {defaultBaudRate : UInt32} {u₀ u : UART}
    (hnew : UART.new baseAddress defaultBaudRate = .ok u₀) {es : List Event}
    (hrun : calls.Run u₀ es u) : Conserved es u :=
  hrun.history (conserved_new hnew) fun _ _ _ _ h hstep => h.snoc hstep

/-- From its construction on, the streams through a UART are kept by any calls. -/
theorem streams_conserved {baseAddress : Address} {defaultBaudRate : UInt32} {u₀ u : UART}
    (hnew : UART.new baseAddress defaultBaudRate = .ok u₀) {es : List Event}
    (hrun : calls.Run u₀ es u) :
    popped (sinceReset es) ++ u.txFifo = written (sinceReset es) ∧
      received (sinceReset es) ++ u.rxFifo = pushed (sinceReset es) ∧
      ((u.statusRegister.read &&& statusTxEmptyBit ≠ 0 ↔ u.txFifo = []) ∧
        (u.statusRegister.read &&& statusRxAvailBit ≠ 0 ↔ u.rxFifo ≠ []) ∧
        (u.statusRegister.read &&& statusEnabledBit ≠ 0 ↔ u.enabled = true)) ∧
      ∀ o e u', (body o).call u = (.error e, u') →
        u'.txFifo = u.txFifo ∧ u'.rxFifo = u.rxFifo ∧ u'.register = u.register := by
  obtain ⟨htx, hrx, hstatus⟩ := conserved_of_run hnew hrun
  refine ⟨htx, hrx, ⟨hstatus.txEmpty, hstatus.rxAvail, hstatus.enabled⟩, ?_⟩
  intro o e u' hthrows
  obtain rfl := atomic_body o u e u' hthrows
  exact ⟨rfl, rfl, rfl⟩

/-- Two bytes are written and one of them is sent; reading fails. -/
theorem streams_conserved_send : ∃ u₀ u, UART.new 0x1000 defaultBaudRate = .ok u₀ ∧
    calls.Run u₀ [(.enable, .ok none), (.writeByte 7, .ok none), (.writeByte 8, .ok none),
      (.readByte, .error "UART RX FIFO empty"), (.popTxByte, .ok (some 7))] u ∧
    [7] ++ u.txFifo = [7, 8] := by
  obtain ⟨u₀, hnew⟩ : ∃ u₀, UART.new 0x1000 defaultBaudRate = .ok u₀ := ⟨_, rfl⟩
  obtain ⟨u, hrun⟩ : ∃ u, calls.Run u₀ [(.enable, .ok none), (.writeByte 7, .ok none),
      (.writeByte 8, .ok none), (.readByte, .error "UART RX FIFO empty"),
      (.popTxByte, .ok (some 7))] u := by
    cases hnew
    exact ⟨_, .cons rfl (.cons rfl (.cons rfl (.cons rfl (.cons rfl (.nil _)))))⟩
  exact ⟨u₀, u, hnew, hrun, (streams_conserved hnew hrun).1⟩

end UART

end Drivers

end EFS
