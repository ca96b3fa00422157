import EFS.Kernel.Requests

/-!
# The lines of the interrupt controller

The registers and arrays of `InterruptController` hold the states of 32 lines (`LineState`).  A call
acts on the line of its id, and what it does there depends on that line alone (`LineState.act`), so
that the controller is 32 state machines side by side.

* `lineState_perform` : a call does to a line what it does to the state of that line, or nothing.
* `cleanLines` : without MMIO writes, a line that is not registered is as if it had never been.
-/

namespace EFS

namespace Kernel

open Mmio

/-- What a controller keeps of one line. -/
structure LineState (H : Type) where
  registered : Bool
  enabled : Bool
  pending : Bool
  priority : UInt8
  handler : Option H
  deriving DecidableEq

namespace InterruptController

variable {H : Type}

/-- The line id that an operation is given. -/
def Op.id? : Op H → Option UInt8
  | .registerInterrupt id | .unregisterInterrupt id | .enable id | .disable id | .trigger id
  | .clear id | .setPriority id _ | .registerHandler id _ | .unregisterHandler id => some id
  | .dispatch | .reset | .writeEnable _ | .writePending _ | .writePriority _ => none

/-- The operation is a call, and not an MMIO write. -/
def Op.IsCall : Op H → Prop
  | .writeEnable _ | .writePending _ | .writePriority _ => False
  | _ => True

/-- What a call returns or throws. -/
def call (ic : InterruptController H) : Op H → Except String (InterruptController H)
  | .registerInterrupt id => (ic.registerInterrupt id).map Prod.fst
  | .unregisterInterrupt id => (ic.unregisterInterrupt id).map Prod.fst
  | .enable id => ic.enable id
  | .disable id => ic.disable id
  | .trigger id => ic.trigger id
  | .clear id => ic.clear id
  | .setPriority id priority => ic.setPriority id priority
  | .registerHandler id callback => (ic.registerHandler id callback).map Prod.fst
  | .unregisterHandler id => (ic.unregisterHandler id).map Prod.fst
  | op => .ok (ic.perform op)

theorem perform_eq (ic : InterruptController H) (op : Op H) :
    ic.perform op = ic.orUnchanged (ic.call op) := by
  cases op <;> rfl

end InterruptController

open InterruptController

/-! ### One line -/

namespace LineState

variable {H : Type}

/-- The state of a line that has never been registered. -/
def unregistered : LineState H := ⟨false, false, false, 128, none⟩

/-- What a call does to a line that is registered. -/
def actRegistered (s : LineState H) : Op H → LineState H
  | .unregisterInterrupt _ => unregistered
  | .enable _ => { s with enabled := true }
  | .disable _ => { s with enabled := false }
  | .trigger _ => { s with pending := true }
  | .clear _ | .dispatch => { s with pending := false }
  | .setPriority _ priority => { s with priority }
  | .registerHandler _ callback => if callback.isSome then { s with handler := callback } else s
  | .unregisterHandler _ => { s with handler := none }
  | _ => s

/-- What a call does to the line that it acts on. -/
def act (s : LineState H) : Op H → LineState H
  | .registerInterrupt _ => { s with registered := true }
  | .reset => unregistered
  | op => if s.registered then s.actRegistered op else s

/-- A line that is not registered carries no state. -/
def Clean (s : LineState H) : Prop := s.registered = false → s = unregistered

theorem clean_unregistered : (unregistered : LineState H).Clean := fun _ => rfl

theorem Clean.of_registered {s : LineState H} (h : s.registered = true) : s.Clean :=
  fun hfalse => absurd (h.symm.trans hfalse) Bool.noConfusion

theorem clean_actRegistered {s : LineState H} (h : s.registered = true) (op : Op H) :
    (s.actRegistered op).Clean := by
  cases op with
  | unregisterInterrupt _ => exact clean_unregistered
  | registerHandler _ callback =>
    simp only [actRegistered]
    split_ifs <;> exact .of_registered h
  | _ => exact .of_registered h

theorem Clean.act {s : LineState H} (h : s.Clean) (op : Op H) : (s.act op).Clean := by
  have hcall : (if s.registered then s.actRegistered op else s).Clean := by
    split_ifs with hregistered
    · exact clean_actRegistered hregistered op
    · exact h
  cases op with
  | registerInterrupt _ => exact .of_registered rfl
  | reset => exact clean_unregistered
  | _ => exact hcall

end LineState

namespace InterruptController

variable {H : Type} {ic ic' : InterruptController H} {line l : Fin maxInterrupts} {id : UInt8}

/-- The bit of the line is set. -/
def hasBit (v : UInt32) (l : Fin maxInterrupts) : Bool := v &&& bit l ≠ 0

/-- The part of the controller that belongs to a line. -/
def lineState (ic : InterruptController H) (l : Fin maxInterrupts) : LineState H where
  registered := ic.registered l
  enabled := hasBit ic.enableRegister.read l
  pending := hasBit ic.pendingRegister.read l
  priority := ic.priorities l
  handler := ic.handlers l

/-- What no call changes. -/
structure SameResets (ic ic' : InterruptController H) : Prop where
  enable : ic'.enableRegister.initialValue = ic.enableRegister.initialValue
  pending : ic'.pendingRegister.initialValue = ic.pendingRegister.initialValue
  priority : ic'.priorityRegister = ic.priorityRegister

/-- Of all lines, only `line` may change, to the state `s`. -/
structure LineStep (ic : InterruptController H) (line : Fin maxInterrupts) (s : LineState H)
    (ic' : InterruptController H) : Prop where
  here : ic'.lineState line = s
  others : ∀ l, l ≠ line → ic'.lineState l = ic.lineState l
  resets : SameResets ic ic'

theorem LineStep.refl (ic : InterruptController H) (line : Fin maxInterrupts) :
    LineStep ic line (ic.lineState line) ic :=
  ⟨rfl, fun _ _ => rfl, ⟨rfl, rfl, rfl⟩⟩

theorem hasBit_or (v : UInt32) (line l : Fin maxInterrupts) :
    hasBit (v ||| bit line) l = if l = line then true else hasBit v l := by
  rw [Bool.eq_iff_iff, hasBit, decide_eq_true_iff, or_bit_ne_zero]
  by_cases hl : l = line <;> simp [hasBit, hl]

theorem hasBit_and_not (v : UInt32) (line l : Fin maxInterrupts) :
    hasBit (v &&& ~~~bit line) l = if l = line then false else hasBit v l := by
  rw [Bool.eq_iff_iff, hasBit, decide_eq_true_iff, and_not_bit_ne_zero]
  by_cases hl : l = line <;> simp [hasBit, hl]

theorem lineStep_writeEnable {b : Bool} {v : UInt32}
    (h : ∀ l, hasBit v l = if l = line then b else hasBit ic.enableRegister.read l) :
    LineStep ic line { ic.lineState line with enabled := b }
      { ic with enableRegister := ic.enableRegister.write v } := by
  refine ⟨?_, ?_, ⟨rfl, rfl, rfl⟩⟩
  · simp only [lineState, Register.read_write, h line, ↓reduceIte]
  · intro l hl
    simp only [lineState, Register.read_write, h l, if_neg hl]

theorem lineStep_writePending {b : Bool} {v : UInt32}
    (h : ∀ l, hasBit v l = if l = line then b else hasBit ic.pendingRegister.read l) :
    LineStep ic line { ic.lineState line with pending := b }
      { ic with pendingRegister := ic.pendingRegister.write v } := by
  refine ⟨?_, ?_, ⟨rfl, rfl, rfl⟩⟩
  · simp only [lineState, Register.read_write, h line, ↓reduceIte]
  · intro l hl
    simp only [lineState, Register.read_write, h l, if_neg hl]

variable (ic ic' line) in
theorem lineStep_arrays (he : ic'.enableRegister = ic.enableRegister)
    (hp : ic'.pendingRegister = ic.pendingRegister)
    (hq : ic'.priorityRegister = ic.priorityRegister)
    (hothers : ∀ l, l ≠ line → ic'.registered l = ic.registered l ∧
      ic'.priorities l = ic.priorities l ∧ ic'.handlers l = ic.handlers l) :
    LineStep ic line { ic.lineState line with
      registered := ic'.registered line
      priority := ic'.priorities line
      handler := ic'.handlers line } ic' := by
  refine ⟨?_, ?_, ⟨by rw [he], by rw [hp], hq⟩⟩
  · simp only [lineState, he, hp]
  · intro l hl
    obtain ⟨hregistered, hpriority, hhandler⟩ := hothers l hl
    simp only [lineState, he, hp, hregistered, hpriority, hhandler]

theorem LineStep.trans {ic'' : InterruptController H} {s s' : LineState H}
    (h : LineStep ic line s ic') (h' : LineStep ic' line s' ic'') : LineStep ic line s' ic'' where
  here := h'.here
  others l hl := (h'.others l hl).trans (h.others l hl)
  resets := ⟨h'.resets.enable.trans h.resets.enable, h'.resets.pending.trans h.resets.pending,
    h'.resets.priority.trans h.resets.priority⟩

/-! ### One call -/

theorem lineStep_unregisterInterrupt (hline : validateInterruptId id = .ok line)
    (hregistered : ic.registered line = true) :
    LineStep ic line .unregistered (ic.perform (.unregisterInterrupt id)) := by
  let ic₁ : InterruptController H :=
    { ic with enableRegister := ic.enableRegister.write (ic.enableRegister.read &&& ~~~bit line) }
  let ic₂ : InterruptController H :=
    { ic₁ with
      pendingRegister := ic.pendingRegister.write (ic.pendingRegister.read &&& ~~~bit line) }
  let ic₃ : InterruptController H :=
    { ic₂ with
      registered := Function.update ic.registered line false
      handlers := Function.update ic.handlers line none
      priorities := Function.update ic.priorities line 128 }
  have hperform : ic.perform (.unregisterInterrupt id) = ic₃ := by
    have hdisable : ic.disable id = .ok ic₁ := disable_of_valid hline hregistered
    have hclear : ic₁.clear id = .ok ic₂ := clear_of_valid hline hregistered
    simp [perform, unregisterInterrupt, hline, hregistered, hdisable, hclear, bind, Except.bind,
      pure, Except.pure, Except.map, orUnchanged, ic₃, ic₂, ic₁]
  -- it is `disable`, `clear`, and then the arrays
  have h₁ : LineStep ic line { ic.lineState line with enabled := false } ic₁ :=
    lineStep_writeEnable (hasBit_and_not _ line)
  have h₂ : LineStep ic₁ line { ic₁.lineState line with pending := false } ic₂ :=
    lineStep_writePending (hasBit_and_not _ line)
  have h₃ := lineStep_arrays ic₂ ic₃ line rfl rfl rfl fun l hl =>
    ⟨Function.update_of_ne hl .., Function.update_of_ne hl .., Function.update_of_ne hl ..⟩
  rw [hperform]
  have hcleared := (h₁.trans h₂).trans h₃
  rw [h₂.here, h₁.here] at hcleared
  simpa [ic₃, LineState.unregistered] using hcleared

/-- **A call on a line.** -/
theorem lineStep_perform {op : Op H} (hid : op.id? = some id)
    (hline : validateInterruptId id = .ok line) :
    LineStep ic line ((ic.lineState line).act op) (ic.perform op) := by
  -- the line is looked up, and nothing happens unless it is registered
  have hcall {s : LineState H} {f : Fin maxInterrupts → Except String (InterruptController H)}
      (h : LineStep ic line s (ic.orUnchanged (f line))) :
      LineStep ic line s (ic.orUnchanged (validateInterruptId id >>= f)) := by
    rw [hline]
    exact h
  have hcall' {s : LineState H}
      {f : Fin maxInterrupts → Except String (InterruptController H × Bool)}
      (h : LineStep ic line s (ic.orUnchanged ((f line).map Prod.fst))) :
      LineStep ic line s (ic.orUnchanged ((validateInterruptId id >>= f).map Prod.fst)) := by
    rw [hline]
    exact h
  have hupdate {α : Type} {f : Fin maxInterrupts → α} {a : α} (l : Fin maxInterrupts)
      (hl : l ≠ line) : Function.update f line a l = f l := Function.update_of_ne hl ..
  cases op with
  | registerInterrupt id =>
    obtain rfl := Option.some.inj hid
    refine hcall' ?_
    show LineStep ic line { ic.lineState line with registered := true } _
    by_cases hregistered : ic.registered line = true
    · -- a line that is registered already stays as it is
      rw [if_pos hregistered]
      have hsame : { ic.lineState line with registered := true } = ic.lineState line := by
        rw [← hregistered]
        rfl
      exact hsame ▸ .refl ic line
    · rw [if_neg hregistered]
      have hstep := lineStep_arrays ic
        { ic with registered := Function.update ic.registered line true } line
        rfl rfl rfl fun l hl => ⟨hupdate l hl, rfl, rfl⟩
      simp only [Function.update_self] at hstep
      exact hstep
  | unregisterInterrupt id =>
    obtain rfl := Option.some.inj hid
    by_cases hregistered : ic.registered line = true
    · have hact : (ic.lineState line).act (.unregisterInterrupt id) = .unregistered :=
        if_pos hregistered
      exact hact ▸ lineStep_unregisterInterrupt hline hregistered
    · refine hcall' ?_
      show LineStep ic line (if ic.registered line then _ else _) _
      rw [if_neg hregistered, if_neg hregistered]
      exact .refl ic line
  | enable id =>
    obtain rfl := Option.some.inj hid
    refine hcall ?_
    show LineStep ic line (if ic.registered line then _ else _) _
    split_ifs
    · exact lineStep_writeEnable (hasBit_or _ line)
    · exact .refl ic line
  | disable id =>
    obtain rfl := Option.some.inj hid
    refine hcall ?_
    show LineStep ic line (if ic.registered line then _ else _) _
    split_ifs
    · exact lineStep_writeEnable (hasBit_and_not _ line)
    · exact .refl ic line
  | trigger id =>
    obtain rfl := Option.some.inj hid
    refine hcall ?_
    show LineStep ic line (if ic.registered line then _ else _) _
    split_ifs
    · exact lineStep_writePending (hasBit_or _ line)
    · exact .refl ic line
  | clear id =>
    obtain rfl := Option.some.inj hid
    refine hcall ?_
    show LineStep ic line (if ic.registered line then _ else _) _
    split_ifs
    · exact lineStep_writePending (hasBit_and_not _ line)
    · exact .refl ic line
  | setPriority id priority =>
    obtain rfl := Option.some.inj hid
    refine hcall ?_
    show LineStep ic line (if ic.registered line then _ else _) _
    split_ifs
    · have hstep := lineStep_arrays ic
        { ic with priorities := Function.update ic.priorities line priority } line
        rfl rfl rfl fun l hl => ⟨rfl, hupdate l hl, rfl⟩
      simp only [Function.update_self] at hstep
      exact hstep
    · exact .refl ic line
  | registerHandler id callback =>
    obtain rfl := Option.some.inj hid
    refine hcall' ?_
    show LineStep ic line (if ic.registered line then
      if callback.isSome then { ic.lineState line with handler := callback } else ic.lineState line
      else ic.lineState line) _
    by_cases hregistered : ic.registered line = true ∧ callback.isSome = true
    · rw [if_pos hregistered, if_pos hregistered.1, if_pos hregistered.2]
      have hstep := lineStep_arrays ic
        { ic with handlers := Function.update ic.handlers line callback } line
        rfl rfl rfl fun l hl => ⟨rfl, rfl, hupdate l hl⟩
      simp only [Function.update_self] at hstep
      exact hstep
    · have hsame : (if ic.registered line then
          if callback.isSome then { ic.lineState line with handler := callback }
          else ic.lineState line else ic.lineState line) = ic.lineState line := by
        rw [← ite_and, if_neg hregistered]
      rw [if_neg hregistered, hsame]
      exact .refl ic line
  | unregisterHandler id =>
    obtain rfl := Option.some.inj hid
    refine hcall' ?_
    show LineStep ic line (if ic.registered line then _ else _) _
    split_ifs
    · have hstep := lineStep_arrays ic
        { ic with handlers := Function.update ic.handlers line none } line
        rfl rfl rfl fun l hl => ⟨rfl, rfl, hupdate l hl⟩
      simp only [Function.update_self] at hstep
      exact hstep
    · exact .refl ic line
  | dispatch | reset | writeEnable _ | writePending _ | writePriority _ => cases hid

/-- The operation is one on line `l`. -/
def ActsOn (ic : InterruptController H) : Op H → Fin maxInterrupts → Prop
  | .dispatch, l =>
    ic.highestPriority (ic.enableRegister.read &&& ic.pendingRegister.read) = some l
  | .reset, _ => True
  | op, l => (op.id?.any fun id => id.toNat = (l : ℕ)) = true

instance (ic : InterruptController H) (op : Op H) : DecidablePred (ic.ActsOn op) := fun _ =>
  match op with
  | .dispatch => inferInstanceAs (Decidable (_ = some _))
  | .reset => inferInstanceAs (Decidable True)
  | .registerInterrupt _ | .unregisterInterrupt _ | .enable _ | .disable _ | .trigger _
  | .clear _ | .setPriority _ _ | .registerHandler _ _ | .unregisterHandler _
  | .writeEnable _ | .writePending _ | .writePriority _ => inferInstanceAs (Decidable (_ = true))

theorem actsOn_iff {op : Op H} (hid : op.id? = some id) : ic.ActsOn op l ↔ id.toNat = l := by
  cases op with
  | dispatch | reset | writeEnable _ | writePending _ | writePriority _ => cases hid
  | _ =>
    obtain rfl := Option.some.inj hid
    simp [ActsOn, Op.id?]

/-- The registers are reset to 0, and lines that are not registered carry no state. -/
structure Clean (ic : InterruptController H) : Prop where
  enable : ic.enableRegister.initialValue = 0
  pending : ic.pendingRegister.initialValue = 0
  priority : ic.priorityRegister = .new 0
  lines : ∀ l, (ic.lineState l).Clean

theorem hasBit_zero (l : Fin maxInterrupts) : hasBit 0 l = false := by simp [hasBit]

theorem clean_init : (init : InterruptController H).Clean where
  enable := rfl
  pending := rfl
  priority := rfl
  lines l := by simp [LineState.Clean, lineState, init, LineState.unregistered, hasBit_zero]

theorem Clean.handlersRegistered (h : ic.Clean) : ic.HandlersRegistered := by
  intro l hl
  by_contra hnot
  have hstate : ic.lineState l = .unregistered := h.lines l (Bool.eq_false_iff.2 hnot)
  have hnone : ic.handlers l = none := congrArg LineState.handler hstate
  rw [hnone] at hl
  cases hl

/-- `dispatch` clears the line that it serves. -/
theorem lineStep_dispatch (h : ic.HandlersRegistered)
    (hline : ic.highestPriority (ic.enableRegister.read &&& ic.pendingRegister.read) = some line) :
    LineStep ic line ((ic.lineState line).act .dispatch) (ic.perform .dispatch) := by
  have hbest := selectBest_spec (c := ic.Ready) (List.pairwise_lt_finRange maxInterrupts)
    (fun line => (ic.priorities line).toNat)
  rw [← highestPriority_eq, hline] at hbest
  have hregistered : ic.registered line = true := h line hbest.2.1.2
  have hact : (ic.lineState line).act .dispatch = { ic.lineState line with pending := false } :=
    if_pos hregistered
  have hperform : ic.perform .dispatch = { ic with
      pendingRegister := ic.pendingRegister.write (ic.pendingRegister.read &&& ~~~bit line) } := by
    simp only [perform, dispatch, hline, clear_of_registered hregistered]
  rw [hact, hperform]
  exact lineStep_writePending (hasBit_and_not _ line)

theorem dispatch_of_none
    (h : ic.highestPriority (ic.enableRegister.read &&& ic.pendingRegister.read) = none) :
    ic.perform .dispatch = ic := by
  simp only [perform, dispatch, h]

theorem validateInterruptId_of_invalid (h : maxInterrupts ≤ id.toNat) :
    validateInterruptId id = .error "Interrupt ID out of valid range (0-31)" :=
  dif_neg (not_lt.2 h)

theorem call_of_invalid {op : Op H} (hid : op.id? = some id) (h : maxInterrupts ≤ id.toNat) :
    ic.call op = .error "Interrupt ID out of valid range (0-31)" := by
  have hinvalid := validateInterruptId_of_invalid h
  cases op with
  | dispatch | reset | writeEnable _ | writePending _ | writePriority _ => cases hid
  | registerInterrupt _ | unregisterInterrupt _ | registerHandler _ _ | unregisterHandler _ =>
    obtain rfl := Option.some.inj hid
    simp only [call, registerInterrupt, unregisterInterrupt, registerHandler, unregisterHandler,
      hinvalid]
    rfl
  | enable _ | disable _ | trigger _ | clear _ | setPriority _ _ =>
    obtain rfl := Option.some.inj hid
    simp only [call, enable, disable, trigger, clear, setPriority, hinvalid]
    rfl

/-- **One operation, line by line.** -/
theorem lineState_perform (h : ic.Clean) {op : Op H} (hcall : op.IsCall) (l : Fin maxInterrupts) :
    (ic.perform op).lineState l =
      if ic.ActsOn op l then (ic.lineState l).act op else ic.lineState l := by
  -- what is left to show when the operation is a step of one line
  have hstep {line : Fin maxInterrupts}
      (hs : LineStep ic line ((ic.lineState line).act op) (ic.perform op))
      (hl : ic.ActsOn op l ↔ l = line) : (ic.perform op).lineState l =
        if ic.ActsOn op l then (ic.lineState l).act op else ic.lineState l := by
    by_cases heq : l = line
    · rw [if_pos (hl.2 heq), heq, hs.here]
    · rw [if_neg (mt hl.1 heq), hs.others l heq]
  cases hid : op.id? with
  | some id =>
    rcases lt_or_ge id.toNat maxInterrupts with hvalid | hinvalid
    · have hline : validateInterruptId id = .ok ⟨id.toNat, hvalid⟩ := dif_pos hvalid
      refine hstep (lineStep_perform hid hline) ?_
      rw [actsOn_iff hid, Fin.ext_iff, eq_comm]
    · -- the call throws, and changes nothing
      have hnot : ¬ ic.ActsOn op l := by
        rw [actsOn_iff hid]
        have hl := l.isLt
        omega
      rw [if_neg hnot, perform_eq, call_of_invalid hid hinvalid]
      rfl
  | none =>
    cases op with
    | dispatch =>
      cases hline : ic.highestPriority (ic.enableRegister.read &&& ic.pendingRegister.read) with
      | some line =>
        refine hstep (lineStep_dispatch h.handlersRegistered hline) ?_
        show _ = some l ↔ _
        rw [hline, Option.some_inj, eq_comm]
      | none =>
        have hnot : ¬ ic.ActsOn .dispatch l := by
          show ¬ _ = some l
          rw [hline]
          simp
        rw [if_neg hnot, dispatch_of_none hline]
    | reset =>
      -- this is where the reset values of the registers are needed
      have hreset : ic.reset.lineState l = .unregistered := by
        simp [lineState, reset, Register.read_reset, h.enable, h.pending, hasBit_zero,
          LineState.unregistered]
      exact hreset
    | writeEnable _ | writePending _ | writePriority _ => cases hcall
    | registerInterrupt _ | unregisterInterrupt _ | enable _ | disable _ | trigger _ | clear _
      | setPriority _ _ | registerHandler _ _ | unregisterHandler _ => cases hid

theorem sameResets_perform {op : Op H} (h : ic.Clean) (hcall : op.IsCall) :
    SameResets ic (ic.perform op) := by
  cases hid : op.id? with
  | some id =>
    rcases lt_or_ge id.toNat maxInterrupts with hvalid | hinvalid
    · have hline : validateInterruptId id = .ok ⟨id.toNat, hvalid⟩ := dif_pos hvalid
      exact (lineStep_perform hid hline).resets
    · rw [perform_eq, call_of_invalid hid hinvalid]
      exact ⟨rfl, rfl, rfl⟩
  | none =>
    cases op with
    | dispatch =>
      cases hline : ic.highestPriority (ic.enableRegister.read &&& ic.pendingRegister.read) with
      | some line => exact (lineStep_dispatch h.handlersRegistered hline).resets
      | none =>
        rw [dispatch_of_none hline]
        exact ⟨rfl, rfl, rfl⟩
    | reset =>
      refine ⟨rfl, rfl, ?_⟩
      show ic.priorityRegister.reset = ic.priorityRegister
      rw [h.priority]
      rfl
    | writeEnable _ | writePending _ | writePriority _ => cases hcall
    | registerInterrupt _ | unregisterInterrupt _ | enable _ | disable _ | trigger _ | clear _
      | setPriority _ _ | registerHandler _ _ | unregisterHandler _ => cases hid

theorem Clean.perform (h : ic.Clean) {op : Op H} (hcall : op.IsCall) : (ic.perform op).Clean := by
  have hresets := sameResets_perform h hcall
  refine ⟨hresets.enable.trans h.enable, hresets.pending.trans h.pending,
    hresets.priority.trans h.priority, ?_⟩
  intro l
  rw [lineState_perform h hcall]
  split_ifs
  · exact (h.lines l).act op
  · exact h.lines l

/-! ### The lines determine the controller -/

theorem eq_of_hasBit {v w : UInt32} (h : ∀ l, hasBit v l = hasBit w l) : v = w := by
  refine UInt32.toBitVec_inj.1 (BitVec.eq_of_getLsbD_eq ?_)
  intro i hi
  have hbit := Bool.eq_iff_iff.1 (h ⟨i, hi⟩)
  rw [hasBit, hasBit, decide_eq_true_iff, decide_eq_true_iff, and_bit_ne_zero,
    and_bit_ne_zero] at hbit
  exact Bool.eq_iff_iff.2 hbit

theorem eq_of_lineState (h : ic.Clean) (h' : ic'.Clean)
    (hlines : ∀ l, ic'.lineState l = ic.lineState l) : ic' = ic := by
  have hregister {r r' : Register} (hr : r.initialValue = 0) (hr' : r'.initialValue = 0)
      (hbits : ∀ l, hasBit r'.read l = hasBit r.read l) : r' = r := by
    obtain ⟨initialValue, value⟩ := r
    obtain ⟨initialValue', value'⟩ := r'
    obtain rfl : initialValue = 0 := hr
    obtain rfl : initialValue' = 0 := hr'
    exact congrArg _ (eq_of_hasBit hbits)
  -- the registers agree in every bit, and the arrays at every line
  have henable : ic'.enableRegister = ic.enableRegister :=
    hregister h.enable h'.enable fun l => congrArg LineState.enabled (hlines l)
  have hpending : ic'.pendingRegister = ic.pendingRegister :=
    hregister h.pending h'.pending fun l => congrArg LineState.pending (hlines l)
  have hregistered : ic'.registered = ic.registered :=
    funext fun l => congrArg LineState.registered (hlines l)
  have hpriorities : ic'.priorities = ic.priorities :=
    funext fun l => congrArg LineState.priority (hlines l)
  have hhandlers : ic'.handlers = ic.handlers :=
    funext fun l => congrArg LineState.handler (hlines l)
  obtain ⟨enable, pending, priority, registered, priorities, handlers⟩ := ic
  cases henable
  cases hpending
  cases h'.priority.trans h.priority.symm
  cases hregistered
  cases hpriorities
  cases hhandlers
  rfl

/-! ### Runs without MMIO writes -/

/-- The controller driven by calls only. -/
def calls (H : Type) : LTS (InterruptController H) (Op H) :=
  controller.restrict fun _ op => op.IsCall

theorem clean_of_reachable (h : (calls H).Reachable init ic) : ic.Clean := by
  refine h.invariant clean_init ?_
  rintro ic op _ hclean ⟨hcall, rfl⟩
  exact hclean.perform hcall

/-- What holds of the lines of a controller. -/
structure CleanLines (ic : InterruptController H) : Prop where
  /-- A line that is not registered carries no state. -/
  unregistered : ∀ l, ic.registered l = false →
    ic.enableRegister.read &&& bit l = 0 ∧ ic.pendingRegister.read &&& bit l = 0 ∧
      ic.handlers l = none ∧ ic.priorities l = 128
  /-- Ids of 32 and above throw, and change nothing. -/
  invalid : ∀ op id, op.id? = some id → 32 ≤ id.toNat →
    ic.call op = .error "Interrupt ID out of valid range (0-31)" ∧ ic.perform op = ic
  /-- The queries throw for them, too. -/
  query : ∀ id, 32 ≤ id.toNat →
    ic.enabled id = .error "Interrupt ID out of valid range (0-31)" ∧
      ic.pending id = .error "Interrupt ID out of valid range (0-31)" ∧
      ic.getPriority id = .error "Interrupt ID out of valid range (0-31)"
  /-- A call on one line leaves the others as they are. -/
  others : ∀ op l, op.IsCall → ¬ ic.ActsOn op l → (ic.perform op).lineState l = ic.lineState l
  /-- A line that is unregistered and registered again is like one that is registered for the first
  time, in a controller `ic'` whose other lines are the same. -/
  again : ∀ id (l : Fin maxInterrupts) ic', id.toNat = (l : ℕ) → (calls H).Reachable init ic' →
    ic'.registered l = false → (∀ l', l' ≠ l → ic'.lineState l' = ic.lineState l') →
      (ic.perform (.unregisterInterrupt id)).perform (.registerInterrupt id) =
        ic'.perform (.registerInterrupt id)

/-- Unregistering makes a line as if it had never been registered. -/
theorem perform_unregisterInterrupt (h : ic.Clean) (h' : ic'.Clean) (hid : id.toNat = (l : ℕ))
    (hregistered : ic'.registered l = false)
    (hothers : ∀ l', l' ≠ l → ic'.lineState l' = ic.lineState l') :
    ic.perform (.unregisterInterrupt id) = ic' := by
  have hacts (l' : Fin maxInterrupts) : ic.ActsOn (.unregisterInterrupt id) l' ↔ l' = l := by
    rw [actsOn_iff rfl, hid, Fin.ext_iff, eq_comm]
  have hcall : (Op.unregisterInterrupt id : Op H).IsCall := trivial
  refine eq_of_lineState h' (h.perform hcall) ?_
  intro l'
  rw [lineState_perform h hcall]
  by_cases hl : l' = l
  · subst hl
    have hact : (ic.lineState l').act (.unregisterInterrupt id) = .unregistered := by
      show (if (ic.lineState l').registered then _ else _) = _
      split_ifs with hreg
      · rfl
      · exact h.lines l' (Bool.eq_false_iff.2 hreg)
    rw [if_pos ((hacts l').2 rfl), hact, h'.lines l' hregistered]
  · rw [if_neg (mt (hacts l').1 hl), hothers l' hl]

/-- **Lines that are not registered carry no state**, in every state that calls reach, and calls on
one line do not affect another. -/
theorem cleanLines (h : (calls H).Reachable init ic) : ic.CleanLines := by
  have hclean : ic.Clean := clean_of_reachable h
  refine ⟨?_, ?_, ?_, ?_, ?_⟩
  · intro l hl
    have hstate : ic.lineState l = .unregistered := hclean.lines l hl
    have henabled : hasBit ic.enableRegister.read l = false := congrArg LineState.enabled hstate
    have hpending : hasBit ic.pendingRegister.read l = false := congrArg LineState.pending hstate
    rw [hasBit, decide_eq_false_iff_not, not_not] at henabled hpending
    exact ⟨henabled, hpending, congrArg LineState.handler hstate,
      congrArg LineState.priority hstate⟩
  · intro op id hid hinvalid
    have hcall : ic.call op = .error "Interrupt ID out of valid range (0-31)" :=
      call_of_invalid hid hinvalid
    exact ⟨hcall, by rw [perform_eq, hcall]; rfl⟩
  · intro id hinvalid
    simp only [enabled, pending, getPriority, validateInterruptId_of_invalid hinvalid]
    exact ⟨rfl, rfl, rfl⟩
  · intro op l hcall hnot
    rw [lineState_perform hclean hcall, if_neg hnot]
  · intro id l ic' hid h' hregistered hothers
    rw [perform_unregisterInterrupt hclean (clean_of_reachable h') hid hregistered hothers]

/-- A line that was registered, enabled, given a handler, triggered and unregistered. -/
theorem cleanLines_unregistered :
    let ic := [.registerInterrupt 1, .enable 1, .registerHandler 1 (some ()), .setPriority 1 5,
      .trigger 1, .unregisterInterrupt 1].foldl perform (init : InterruptController Unit)
    ic.CleanLines ∧ ic.perform (.registerInterrupt 1) = init.perform (.registerInterrupt 1) := by
  intro ic
  have hrun (ops : List (Op Unit)) (hops : ∀ op ∈ ops, op.IsCall) :
      (calls Unit).Reachable init (ops.foldl perform init) :=
    ⟨ops, (run_foldl init ops).restrict fun _ => hops⟩
  have hregistered := cleanLines (hrun [.registerInterrupt 1, .enable 1,
    .registerHandler 1 (some ()), .setPriority 1 5, .trigger 1] (by simp [Op.IsCall]))
  refine ⟨cleanLines (hrun _ (by simp [Op.IsCall])), ?_⟩
  refine hregistered.again 1 ⟨1, by decide⟩ init rfl (.refl init) rfl ?_
  intro l hl
  revert l
  decide

end InterruptController

end Kernel

end EFS
