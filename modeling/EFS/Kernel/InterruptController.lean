import EFS.Mmio.Register

/-!
# The interrupt controller

The lines of `InterruptController` and its operations: `trigger` makes a registered line pending,
and `dispatch` picks the pending line with the smallest priority value that is enabled and has a
handler.  Handlers are code of the caller; `H` is their type.  Operations that get the id of a line
throw for ids of 32 and above, before they change anything.
-/

namespace EFS

namespace Kernel

open Mmio

/-- The number of interrupt lines. -/
def maxInterrupts : ℕ := 32

/-- An interrupt controller: its three registers, and what it keeps of each line. -/
structure InterruptController (H : Type) where
  enableRegister : Register
  pendingRegister : Register
  priorityRegister : Register
  registered : Fin maxInterrupts → Bool
  priorities : Fin maxInterrupts → UInt8
  handlers : Fin maxInterrupts → Option H

namespace InterruptController

variable {H : Type} (ic : InterruptController H)

/-- The state of a new controller. -/
def init : InterruptController H :=
  ⟨.new 0, .new 0, .new 0, fun _ => false, fun _ => 128, fun _ => none⟩

/-- `validateInterruptId` : the line with this id, or the exception it throws. -/
def validateInterruptId (id : UInt8) : Except String (Fin maxInterrupts) :=
  if h : id.toNat < maxInterrupts then .ok ⟨id.toNat, h⟩
  else .error "Interrupt ID out of valid range (0-31)"

/-- The bit of a line in the registers. -/
def bit (line : Fin maxInterrupts) : UInt32 := 1 <<< UInt32.ofNat line

/-- `registerInterrupt()`, `false` for a line that is registered already. -/
def registerInterrupt (id : UInt8) : Except String (InterruptController H × Bool) := do
  let line ← validateInterruptId id
  if ic.registered line then return (ic, false)
  else return ({ ic with registered := Function.update ic.registered line true }, true)

/-- `isRegistered()`, `false` for an id that is not a line's. -/
def isRegistered (id : UInt8) : Bool :=
  match validateInterruptId id with
  | .ok line => ic.registered line
  | .error _ => false

/-- `enable()`, without effect on a line that is not registered. -/
def enable (id : UInt8) : Except String (InterruptController H) := do
  let line ← validateInterruptId id
  if ic.registered line then
    return { ic with
      enableRegister := ic.enableRegister.write (ic.enableRegister.read ||| bit line) }
  else return ic

/-- `disable()`, without effect on a line that is not registered. -/
def disable (id : UInt8) : Except String (InterruptController H) := do
  let line ← validateInterruptId id
  if ic.registered line then
    return { ic with
      enableRegister := ic.enableRegister.write (ic.enableRegister.read &&& ~~~bit line) }
  else return ic

/-- `enabled()`: the bit of the line in ENABLE. -/
def enabled (id : UInt8) : Except String Bool := do
  let line ← validateInterruptId id
  return ic.enableRegister.read &&& bit line ≠ 0

/-- `trigger()`, without effect on a line that is not registered. -/
def trigger (id : UInt8) : Except String (InterruptController H) := do
  let line ← validateInterruptId id
  if ic.registered line then
    return { ic with
      pendingRegister := ic.pendingRegister.write (ic.pendingRegister.read ||| bit line) }
  else return ic

/-- `clear()`, without effect on a line that is not registered. -/
def clear (id : UInt8) : Except String (InterruptController H) := do
  let line ← validateInterruptId id
  if ic.registered line then
    return { ic with
      pendingRegister := ic.pendingRegister.write (ic.pendingRegister.read &&& ~~~bit line) }
  else return ic

/-- `pending()`: the bit of the line in PENDING. -/
def pending (id : UInt8) : Except String Bool := do
  let line ← validateInterruptId id
  return ic.pendingRegister.read &&& bit line ≠ 0

/-- `unregisterInterrupt` : the line is disabled and cleared first, while it is registered. -/
def unregisterInterrupt (id : UInt8) : Except String (InterruptController H × Bool) := do
  let line ← validateInterruptId id
  if ic.registered line then
    let ic ← ic.disable id
    let ic ← ic.clear id
    return ({ ic with
      registered := Function.update ic.registered line false
      handlers := Function.update ic.handlers line none
      priorities := Function.update ic.priorities line 128 }, true)
  else return (ic, false)

/-- `setPriority()`, without effect on a line that is not registered. -/
def setPriority (id : UInt8) (priority : UInt8) : Except String (InterruptController H) := do
  let line ← validateInterruptId id
  if ic.registered line then
    return { ic with priorities := Function.update ic.priorities line priority }
  else return ic

/-- `getPriority()`. -/
def getPriority (id : UInt8) : Except String UInt8 := do
  let line ← validateInterruptId id
  return ic.priorities line

/-- `registerHandler` : an empty callback is refused. -/
def registerHandler (id : UInt8) (callback : Option H) :
    Except String (InterruptController H × Bool) := do
  let line ← validateInterruptId id
  if ic.registered line ∧ callback.isSome then
    return ({ ic with handlers := Function.update ic.handlers line callback }, true)
  else return (ic, false)

/-- `unregisterHandler()`, `false` for a line that is not registered. -/
def unregisterHandler (id : UInt8) : Except String (InterruptController H × Bool) := do
  let line ← validateInterruptId id
  if ic.registered line then
    return ({ ic with handlers := Function.update ic.handlers line none }, true)
  else return (ic, false)

/-- The loop of `dispatch` : the best line so far is replaced by one of a smaller priority value. -/
def highestPriority (active : UInt32) : Option (Fin maxInterrupts) :=
  (List.finRange maxInterrupts).foldl (fun best line =>
    if active &&& bit line ≠ 0 ∧ (ic.handlers line).isSome then
      match best with
      | none => some line
      | some b => if ic.priorities line < ic.priorities b then some line else some b
    else best) none

/-- `dispatch` : the controller when the handler is called, and the handler. -/
def dispatch : InterruptController H × Option H :=
  match ic.highestPriority (ic.enableRegister.read &&& ic.pendingRegister.read) with
  | some line =>
    match ic.clear (UInt8.ofNat line) with
    | .ok ic' => (ic', ic'.handlers line)
    | .error _ => (ic, none)
  | none => (ic, none)

/-- `reset()` unregisters every line. -/
def reset : InterruptController H where
  enableRegister := ic.enableRegister.reset
  pendingRegister := ic.pendingRegister.reset
  priorityRegister := ic.priorityRegister.reset
  registered := fun _ => false
  priorities := fun _ => 128
  handlers := fun _ => none

theorem trigger_ok_iff {id : UInt8} : (∃ ic', ic.trigger id = .ok ic') ↔ id.toNat < 32 := by
  unfold trigger validateInterruptId
  by_cases h : id.toNat < maxInterrupts
  · simp only [h, ↓reduceDIte, Except.bind, bind]
    refine iff_of_true ?_ h
    split_ifs
    · exact ⟨_, rfl⟩
    · exact ⟨_, rfl⟩
  · simp only [h, ↓reduceDIte, Except.bind, bind]
    exact iff_of_false (by rintro ⟨_, ⟨⟩⟩) h

end InterruptController

end Kernel

end EFS
