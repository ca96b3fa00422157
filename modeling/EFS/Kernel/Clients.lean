import EFS.Kernel.Latency

/-!
# Clients of the interrupt controller

The clients are the peripherals that signal by interrupts, each on a line of its own.

* `SetUp.ready_withPending` : which lines are ready when clients have triggered theirs.
* `dispatched_serve` : what one dispatch does with them.
-/

namespace EFS

namespace Kernel

open Mmio

namespace InterruptController

variable {H ι : Type} {ic : InterruptController H} {clients : List ι}
  {line : ι → Fin maxInterrupts} {r : ι}

/-- Every client has a line of its own, which is registered, enabled and has a handler. -/
structure SetUp (ic : InterruptController H) (clients : List ι) (line : ι → Fin maxInterrupts) :
    Prop where
  injective : ∀ r ∈ clients, ∀ u ∈ clients, line r = line u → r = u
  enabled : ∀ r ∈ clients, ic.enableRegister.read &&& bit (line r) ≠ 0
  handler : ∀ r ∈ clients, (ic.handlers (line r)).isSome
  handlersRegistered : ic.HandlersRegistered

namespace SetUp

theorem registered (h : ic.SetUp clients line) (hr : r ∈ clients) :
    ic.registered (line r) = true :=
  h.handlersRegistered (line r) (h.handler r hr)

theorem withPending (h : ic.SetUp clients line) (v : UInt32) :
    (ic.withPending v).SetUp clients line :=
  ⟨h.injective, h.enabled, h.handler, h.handlersRegistered⟩

/-- The lines that are ready, where `v` has the pending bits and those of some clients. -/
theorem ready_withPending {P : ι → Prop} {v : UInt32} (h : ic.SetUp clients line)
    (hv : ∀ l, v &&& bit l ≠ 0 ↔ ic.Pending l ∨ ∃ r ∈ clients, line r = l ∧ P r)
    (l : Fin maxInterrupts) :
    (ic.withPending v).Ready l ↔ ic.Ready l ∨ ∃ r ∈ clients, line r = l ∧ P r := by
  rw [InterruptController.ready_withPending, hv, Ready, and_and_bit_ne_zero]
  constructor
  · rintro ⟨hen, hp | hr, hh⟩
    · exact .inl ⟨⟨hen, hp⟩, hh⟩
    · exact .inr hr
  · rintro (⟨⟨hen, hp⟩, hh⟩ | ⟨r, hr, rfl, hP⟩)
    · exact ⟨hen, .inl hp, hh⟩
    · exact ⟨h.enabled r hr, .inr ⟨r, hr, rfl, hP⟩, h.handler r hr⟩

end SetUp

theorem trigger_of_registered {id : UInt8} {l : Fin maxInterrupts} (hid : id.toNat = l)
    (h : ic.registered l = true) :
    ic.trigger id = .ok (ic.withPending (ic.pendingRegister.read ||| bit l)) := by
  simp only [trigger, validateInterruptId_eq_ok.2 hid, h, bind, Except.bind, pure, Except.pure,
    ↓reduceIte]
  rfl

/-! ### One dispatch -/

/-- The handler that `dispatch` calls, and the controller that it leaves. -/
structure Dispatched (ic : InterruptController H) (svc : Option (Service H))
    (ic' : InterruptController H) : Prop where
  withPending : ∃ v, ic' = ic.withPending v
  ready_iff : ∀ l, ic'.Ready l ↔ ic.Ready l ∧ ∀ s ∈ svc, l ≠ s.line
  first : ∀ s ∈ svc, ic.Ready s.line ∧ ic.handlers s.line = some s.handler ∧
    ∀ l, ic.Ready l → l ≠ s.line → ic.rank s.line < ic.rank l
  idle : svc = none → ∀ l, ¬ ic.Ready l

theorem dispatched_serve (h : ic.HandlersRegistered) :
    ic.Dispatched ic.serve.frame? ic.serve.state := by
  obtain ⟨hnone, hserve⟩ | ⟨i, handler, hi, hhandler, hmin, hserve⟩ := serve_cases h
  · rw [hserve]
    exact ⟨⟨ic.pendingRegister.read, rfl⟩, fun l => (and_iff_left nofun).symm, nofun,
      fun _ => hnone⟩
  · rw [hserve]
    refine ⟨⟨_, rfl⟩, fun l => ready_clear.trans (and_congr_right fun _ => ?_), ?_, nofun⟩
    · exact ⟨fun hne s hs => Option.some.inj hs ▸ hne, fun hs => hs _ rfl⟩
    · rintro s ⟨⟩
      exact ⟨hi, hhandler, hmin⟩

theorem serve_eq_dispatch (ic : InterruptController H) :
    (ic.serve.state, ic.serve.frame?.map Service.handler) = ic.dispatch := by
  cases hp : ic.highestPriority (ic.enableRegister.read &&& ic.pendingRegister.read) with
  | none =>
    simp only [serve, dispatch, hp]
    rfl
  | some line =>
    simp only [serve, hp]
    rcases ic.dispatch with ⟨ic', _ | handler⟩ <;> rfl

end InterruptController

end Kernel

end EFS
