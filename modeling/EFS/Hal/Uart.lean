import EFS.Drivers.UartStreams

/-!
# The hardware abstraction layer of the UART

A `UARTHAL` holds a pointer to a UART, which may be null; a call without a driver only logs a
warning.  Attaching a UART enables it.
-/

namespace EFS

theorem Drivers.UART.enabled_enable (u : Drivers.UART) : u.enable.enabled = true := by
  simp [enabled, enable, updateStatusRegister]
  decide

namespace Hal

open EFS.Drivers

/-- The driver of a UART HAL, if it is attached. -/
structure UARTHAL where
  uart : Option UART

namespace UARTHAL

/-- `attachUART`, which both constructors call. -/
def attachUART (uart : Option UART) : UARTHAL := ⟨uart.map UART.enable⟩

variable (h : UARTHAL)

/-- `writeByte()`. -/
def writeByte (byte : UInt8) : Except String UARTHAL :=
  match h.uart with
  | none => .ok h
  | some u => (u.writeByte byte).map fun u => ⟨some u⟩

/-- `readByte()`, 0 without a driver. -/
def readByte : Except String (UInt8 × UARTHAL) :=
  match h.uart with
  | none => .ok (0, h)
  | some u => u.readByte.map fun r => (r.1, ⟨some r.2⟩)

/-- `hasData()`, never without a driver. -/
def hasData : Bool := h.uart.elim false fun u => !u.rxFifo.isEmpty

/-- `setBaudRate()`. -/
def setBaudRate (rate : UInt32) : Except String UARTHAL :=
  match h.uart with
  | none => .ok h
  | some u => (u.setBaudRate rate).map fun u => ⟨some u⟩

/-- `enable()`. -/
def enable : UARTHAL := ⟨h.uart.map UART.enable⟩

/-- `disable()`. -/
def disable : UARTHAL := ⟨h.uart.map UART.disable⟩

/-- How many bytes are waiting to be read. -/
def pending : ℕ := h.uart.elim 0 fun u => u.rxFifo.length

variable {h} {h' : UARTHAL} {byte : UInt8}

theorem pending_readByte (hdata : h.hasData = true) (hread : h.readByte = .ok (byte, h')) :
    h'.pending < h.pending := by
  obtain ⟨uart⟩ := h
  cases uart with
  | none => simp [hasData] at hdata
  | some u =>
    by_cases henabled : u.enabled = true
    · cases hfifo : u.rxFifo with
      | nil => simp [hasData, hfifo] at hdata
      | cons b rest =>
        obtain ⟨u', hok, -, hrx, -⟩ := UART.readByte_follows henabled hfifo
        simp only [readByte, hok] at hread
        cases hread
        simp [pending, hrx, hfifo]
    · simp [readByte, UART.readByte, henabled, Except.map] at hread

theorem pending_writeByte (hwrite : h.writeByte byte = .ok h') : h'.pending = h.pending := by
  obtain ⟨uart⟩ := h
  cases uart with
  | none =>
    cases hwrite
    rfl
  | some u =>
    by_cases henabled : u.enabled = true
    · obtain ⟨u', hok, -, -, hrx⟩ := UART.writeByte_follows henabled byte
      simp only [writeByte, hok] at hwrite
      cases hwrite
      simp [pending, hrx]
    · simp [writeByte, UART.writeByte, henabled, Except.map] at hwrite

end UARTHAL

end Hal

end EFS
