import EFS.Kernel.InterruptController
import EFS.LTS.Basic
import EFS.LTS.Selection

/-!
# Draining the interrupt controller

`controller` is the interrupt controller driven from outside: its operations, with any ids, and
MMIO writes of any values to its registers.  In every state it reaches, a line that has a handler
is registered (`HandlersRegistered`), so that `dispatch` really clears the line it serves.

Calling `dispatch` until it reports that nothing was dispatched therefore serves the lines that
are enabled, pending and have a handler (`Ready`), each of them once, in the order of priority
value and id, and changes nothing but their pending bits.
-/

namespace EFS

namespace Kernel

open Mmio

namespace InterruptController

variable {H : Type}

/-! ### The controller and its environment -/

/-- A call of the controller, or an MMIO write to one of its registers. -/
inductive Op (H : Type)
  | registerInterrupt (id : UInt8)
  | unregisterInterrupt (id : UInt8)
  | enable (id : UInt8)
  | disable (id : UInt8)
  | trigger (id : UInt8)
  | clear (id : UInt8)
  | setPriority (id : UInt8) (priority : UInt8)
  | registerHandler (id : UInt8) (callback : Option H)
  | unregisterHandler (id : UInt8)
  | dispatch
  | reset
  | writeEnable (value : UInt32)
  | writePending (value : UInt32)
  | writePriority (value : UInt32)

/-- The controller after a call that returns it or throws before it has changed anything. -/
def orUnchanged (ic : InterruptController H) :
    Except String (InterruptController H) → InterruptController H
  | .ok ic' => ic'
  | .error _ => ic

/-- The controller after an operation, which leaves it as it is if it throws. -/
def perform (ic : InterruptController H) : Op H → InterruptController H
  | .registerInterrupt id => ic.orUnchanged ((ic.registerInterrupt id).map Prod.fst)
  | .unregisterInterrupt id => ic.orUnchanged ((ic.unregisterInterrupt id).map Prod.fst)
  | .enable id => ic.orUnchanged (ic.enable id)
  | .disable id => ic.orUnchanged (ic.disable id)
  | .trigger id => ic.orUnchanged (ic.trigger id)
  | .clear id => ic.orUnchanged (ic.clear id)
  | .setPriority id priority => ic.orUnchanged (ic.setPriority id priority)
  | .registerHandler id callback => ic.orUnchanged ((ic.registerHandler id callback).map Prod.fst)
  | .unregisterHandler id => ic.orUnchanged ((ic.unregisterHandler id).map Prod.fst)
  | .dispatch => ic.dispatch.1
  | .reset => ic.reset
  | .writeEnable value => { ic with enableRegister := ic.enableRegister.write value }
  | .writePending value => { ic with pendingRegister := ic.pendingRegister.write value }
  | .writePriority value => { ic with priorityRegister := ic.priorityRegister.write value }

/-- The controller driven by any sequence of calls and register writes. -/
def controller : LTS (InterruptController H) (Op H) where
  step ic op ic' := ic.perform op = ic'

theorem run_foldl (ic : InterruptController H) (ops : List (Op H)) :
    controller.Run ic ops (ops.foldl perform ic) := by
  induction ops generalizing ic with
  | nil => exact .nil ic
  | cons op ops ih => exact .cons rfl (ih _)

/-! ### Lines with handlers are registered -/

/-- Only registered lines have handlers. -/
def HandlersRegistered (ic : InterruptController H) : Prop :=
  ∀ line, (ic.handlers line).isSome → ic.registered line = true

theorem handlersRegistered_init : (init : InterruptController H).HandlersRegistered := by
  intro line h
  cases h

variable {ic : InterruptController H}

theorem HandlersRegistered.of_eq {ic' : InterruptController H} (h : ic.HandlersRegistered)
    (hr : ic'.registered = ic.registered) (hh : ic'.handlers = ic.handlers) :
    ic'.HandlersRegistered := by
  intro line hl
  rw [hh] at hl
  rw [hr]
  exact h line hl

/-- A call on a line throws before it does anything, or acts on the line of its id. -/
theorem orUnchanged_validated {P : InterruptController H → Prop} {id : UInt8}
    {f : Fin maxInterrupts → Except String (InterruptController H)} (h : P ic)
    (hf : ∀ line, validateInterruptId id = .ok line → P (ic.orUnchanged (f line))) :
    P (ic.orUnchanged (validateInterruptId id >>= f)) := by
  cases hv : validateInterruptId id with
  | error e => exact h
  | ok line => exact hf line hv

theorem orUnchanged_validated_fst {P : InterruptController H → Prop} {id : UInt8}
    {f : Fin maxInterrupts → Except String (InterruptController H × Bool)} (h : P ic)
    (hf : ∀ line, validateInterruptId id = .ok line →
      P (ic.orUnchanged ((f line).map Prod.fst))) :
    P (ic.orUnchanged ((validateInterruptId id >>= f).map Prod.fst)) := by
  cases hv : validateInterruptId id with
  | error e => exact h
  | ok line => exact hf line hv

theorem validateInterruptId_ofNat (line : Fin maxInterrupts) :
    validateInterruptId (UInt8.ofNat line) = .ok line := by
  revert line
  decide

theorem disable_of_valid {id : UInt8} {line : Fin maxInterrupts}
    (hv : validateInterruptId id = .ok line) (h : ic.registered line = true) :
    ic.disable id = .ok { ic with
      enableRegister := ic.enableRegister.write (ic.enableRegister.read &&& ~~~bit line) } := by
  simp [disable, hv, h, bind, Except.bind, pure, Except.pure]

theorem clear_of_valid {id : UInt8} {line : Fin maxInterrupts}
    (hv : validateInterruptId id = .ok line) (h : ic.registered line = true) :
    ic.clear id = .ok { ic with
      pendingRegister := ic.pendingRegister.write (ic.pendingRegister.read &&& ~~~bit line) } := by
  simp [clear, hv, h, bind, Except.bind, pure, Except.pure]

theorem clear_of_registered {line : Fin maxInterrupts} (h : ic.registered line = true) :
    ic.clear (UInt8.ofNat line) = .ok { ic with
      pendingRegister := ic.pendingRegister.write (ic.pendingRegister.read &&& ~~~bit line) } :=
  clear_of_valid (validateInterruptId_ofNat line) h

/-- A registered line stays registered, or it loses its handler. -/
theorem HandlersRegistered.update (h : ic.HandlersRegistered) {ic' : InterruptController H}
    (line : Fin maxInterrupts) (hr : ic'.registered line = true ∨ ic'.handlers line = none)
    (hothers : ∀ l, l ≠ line →
      ic'.registered l = ic.registered l ∧ ic'.handlers l = ic.handlers l) :
    ic'.HandlersRegistered := by
  intro l hl
  rcases eq_or_ne l line with rfl | hne
  · rcases hr with hr | hr
    · exact hr
    · rw [hr] at hl
      cases hl
  · rw [(hothers l hne).2] at hl
    rw [(hothers l hne).1]
    exact h l hl

/-! ### What one dispatch does -/

/-- A line that `dispatch` may serve: enabled, pending, and with a handler. -/
def Ready (ic : InterruptController H) (line : Fin maxInterrupts) : Prop :=
  ic.enableRegister.read &&& ic.pendingRegister.read &&& bit line ≠ 0 ∧
    (ic.handlers line).isSome

instance decidableReady : DecidablePred ic.Ready :=
  fun _ => inferInstanceAs (Decidable (_ ∧ _))

/-- Lines are served in the order of their priority values and ids. -/
def rank (ic : InterruptController H) (line : Fin maxInterrupts) : ℕ ×ₗ Fin maxInterrupts :=
  toLex ((ic.priorities line).toNat, line)

theorem highestPriority_eq :
    ic.highestPriority (ic.enableRegister.read &&& ic.pendingRegister.read) =
      selectBest ic.Ready (fun line => (ic.priorities line).toNat)
        (List.finRange maxInterrupts) := by
  unfold highestPriority selectBest
  congr 1
  funext best line
  cases best with
  | none => rfl
  | some b =>
    simp only [keepBest, Ready, UInt8.lt_iff_toNat_lt]
    rfl

/-- Either no line is ready and nothing happens, or the first of the ready lines is cleared and
its handler is called. -/
theorem dispatch_spec (h : ic.HandlersRegistered) :
    ((∀ line, ¬ ic.Ready line) ∧ ic.dispatch = (ic, none)) ∨
      ∃ line, ic.Ready line ∧ (∀ l, ic.Ready l → l ≠ line → ic.rank line < ic.rank l) ∧
        ic.dispatch = ({ ic with
          pendingRegister := ic.pendingRegister.write (ic.pendingRegister.read &&& ~~~bit line) },
          ic.handlers line) := by
  have hbest := selectBest_spec (c := ic.Ready) (List.pairwise_lt_finRange maxInterrupts)
    (fun line => (ic.priorities line).toNat)
  rw [← highestPriority_eq] at hbest
  unfold dispatch
  cases hp : ic.highestPriority (ic.enableRegister.read &&& ic.pendingRegister.read) with
  | none =>
    rw [hp] at hbest
    exact .inl ⟨fun line => hbest line (List.mem_finRange line), rfl⟩
  | some line =>
    rw [hp] at hbest
    obtain ⟨-, hready, hmin⟩ := hbest
    refine .inr ⟨line, hready, fun l hl hne => hmin l (List.mem_finRange l) hl hne, ?_⟩
    simp only [clear_of_registered (h line hready.2)]

theorem HandlersRegistered.perform (h : ic.HandlersRegistered) (op : Op H) :
    (ic.perform op).HandlersRegistered := by
  cases op with
  | registerInterrupt id =>
    refine orUnchanged_validated_fst h ?_
    intro line _
    split_ifs
    · exact h
    · exact h.update line (.inl (Function.update_self ..))
        fun l hl => ⟨Function.update_of_ne hl .., rfl⟩
  | unregisterInterrupt id =>
    refine orUnchanged_validated_fst h ?_
    intro line hv
    split_ifs with hreg
    · -- the line is disabled and cleared before it loses its handler
      rw [disable_of_valid hv hreg]
      simp only [bind, Except.bind, clear, hv, hreg]
      exact h.update line (.inr (Function.update_self ..))
        fun l hl => ⟨Function.update_of_ne hl .., Function.update_of_ne hl ..⟩
    · exact h
  | enable id | disable id | trigger id | clear id | setPriority id =>
    refine orUnchanged_validated h ?_
    intro line _
    split_ifs
    · exact h
    · exact h
  | registerHandler id callback =>
    refine orUnchanged_validated_fst h ?_
    intro line _
    split_ifs with hreg
    · exact h.update line (.inl hreg.1) fun l hl => ⟨rfl, Function.update_of_ne hl ..⟩
    · exact h
  | unregisterHandler id =>
    refine orUnchanged_validated_fst h ?_
    intro line _
    split_ifs
    · exact h.update line (.inr (Function.update_self ..))
        fun l hl => ⟨rfl, Function.update_of_ne hl ..⟩
    · exact h
  | dispatch =>
    obtain ⟨-, hd⟩ | ⟨line, -, -, hd⟩ := dispatch_spec h
    · simp only [InterruptController.perform, hd]
      exact h
    · simp only [InterruptController.perform, hd]
      exact h.of_eq rfl rfl
  | reset =>
    intro line hl
    cases hl
  | writeEnable value => exact h
  | writePending value => exact h
  | writePriority value => exact h

/-! ### Bits of the lines -/

theorem toBitVec_bit (line : Fin maxInterrupts) : (bit line).toBitVec = BitVec.twoPow 32 line := by
  revert line
  decide +kernel

theorem and_bit_ne_zero (v : UInt32) (line : Fin maxInterrupts) :
    v &&& bit line ≠ 0 ↔ v.toBitVec.getLsbD line = true := by
  rw [Ne, ← UInt32.toBitVec_inj, UInt32.toBitVec_and, toBitVec_bit, BitVec.and_twoPow]
  cases v.toBitVec.getLsbD line with
  | true => simp [← toBitVec_bit]; revert line; decide
  | false => simp

theorem and_not_bit_ne_zero (v : UInt32) (line l : Fin maxInterrupts) :
    v &&& ~~~bit line &&& bit l ≠ 0 ↔ v &&& bit l ≠ 0 ∧ l ≠ line := by
  have hl : (l : ℕ) < 32 := l.isLt
  have hline : (line : ℕ) < 32 := line.isLt
  rw [and_bit_ne_zero, and_bit_ne_zero]
  simp only [UInt32.toBitVec_and, UInt32.toBitVec_not, toBitVec_bit, BitVec.getLsbD_and,
    BitVec.getLsbD_not, BitVec.getLsbD_twoPow, hl, hline, decide_true, Bool.true_and,
    Bool.and_eq_true, Bool.not_eq_true', decide_eq_false_iff_not, ne_eq, Fin.ext_iff]
  rw [eq_comm (a := (line : ℕ))]

/-! ### Draining -/

theorem and_and_bit_ne_zero {a b : UInt32} (line : Fin maxInterrupts) :
    a &&& b &&& bit line ≠ 0 ↔ a &&& bit line ≠ 0 ∧ b &&& bit line ≠ 0 := by
  rw [and_bit_ne_zero, and_bit_ne_zero, and_bit_ne_zero, UInt32.toBitVec_and,
    BitVec.getLsbD_and, Bool.and_eq_true]

/-- The controller with other pending bits. -/
def withPending (ic : InterruptController H) (v : UInt32) : InterruptController H :=
  { ic with pendingRegister := ic.pendingRegister.write v }

theorem ready_withPending {v : UInt32} {line : Fin maxInterrupts} :
    (ic.withPending v).Ready line ↔
      ic.enableRegister.read &&& bit line ≠ 0 ∧ v &&& bit line ≠ 0 ∧
        (ic.handlers line).isSome := by
  rw [Ready, and_and_bit_ne_zero, and_assoc]
  rfl

theorem ready_clear {v : UInt32} {line l : Fin maxInterrupts} :
    (ic.withPending (v &&& ~~~bit line)).Ready l ↔ (ic.withPending v).Ready l ∧ l ≠ line := by
  rw [ready_withPending, ready_withPending, and_not_bit_ne_zero]
  tauto

/-- Some of the lines that were ready in `ic` have been cleared, and nothing else has changed. -/
def DrainedFrom (ic ic' : InterruptController H) : Prop :=
  ∃ v, ic' = ic.withPending v ∧ ∀ line, v &&& bit line ≠ 0 ↔
    ic.pendingRegister.read &&& bit line ≠ 0 ∧ (ic.Ready line → ic'.Ready line)

theorem DrainedFrom.refl : ic.DrainedFrom ic :=
  ⟨ic.pendingRegister.read, rfl, fun _ => ⟨fun h => ⟨h, id⟩, fun h => h.1⟩⟩

/-- Clearing one of the lines that are still ready. -/
theorem DrainedFrom.clear {v : UInt32} {line : Fin maxInterrupts}
    (h : ic.DrainedFrom (ic.withPending v)) (hready : (ic.withPending v).Ready line) :
    ic.DrainedFrom (ic.withPending (v &&& ~~~bit line)) := by
  obtain ⟨w, hw, hbits⟩ := h
  obtain rfl : v = w := congrArg (fun c => c.pendingRegister.read) hw
  refine ⟨_, rfl, ?_⟩
  intro l
  rw [and_not_bit_ne_zero, hbits, ready_clear]
  constructor
  · rintro ⟨⟨hp, hl⟩, hne⟩
    exact ⟨hp, fun hr => ⟨hl hr, hne⟩⟩
  · rintro ⟨hp, hl⟩
    refine ⟨⟨hp, fun hr => (hl hr).1⟩, ?_⟩
    rintro rfl
    -- the line was ready in `ic`, too, so that it would have to stay ready
    have hl' := ready_withPending.1 hready
    exact (hl ⟨(and_and_bit_ne_zero l).2 ⟨hl'.1, hp⟩, hl'.2.2⟩).2 rfl

/-- **Draining.**  `dispatch`, called until it returns `false`, serves the ready lines in the
order of priority value and id, each of them once, and clears exactly their pending bits. -/
theorem drains_of_handlersRegistered (h : ic.HandlersRegistered) :
    ∃ (lines : List (Fin maxInterrupts)) (hs : List H) (v : UInt32),
      lines.Pairwise (fun j k => ic.rank j < ic.rank k) ∧
      (∀ line, line ∈ lines ↔ ic.Ready line) ∧ hs.map some = lines.map ic.handlers ∧
      (∀ line, v &&& bit line ≠ 0 ↔
        ic.pendingRegister.read &&& bit line ≠ 0 ∧ ¬ ic.Ready line) ∧
      Loop dispatch ic hs (ic.withPending v) := by
  -- the ready lines are served by rank, and those that are left over are not ready
  have hdrain := Loop.of_least (f := dispatch) (I := ic.DrainedFrom)
    (fun s => Finset.univ.filter s.Ready) ic.rank ic.handlers ?_ ?_ DrainedFrom.refl
  · obtain ⟨lines, hs, t, hsorted, hmem, hhs, hloop, ⟨v, rfl, hbits⟩, hempty⟩ := hdrain
    refine ⟨lines, hs, v, hsorted, fun line => by simp [hmem], hhs, ?_, hloop⟩
    intro line
    have hnot : ¬ (ic.withPending v).Ready line := by
      intro hr
      simpa [hempty] using (Finset.mem_filter (s := Finset.univ)).2 ⟨Finset.mem_univ line, hr⟩
    rw [hbits]
    tauto
  · rintro s ⟨v, rfl, -⟩ hempty
    have hv : (ic.withPending v).HandlersRegistered := h
    obtain ⟨-, hd⟩ | ⟨line, hready, -⟩ := dispatch_spec hv
    · exact hd
    · have := Finset.mem_filter.2 ⟨Finset.mem_univ line, hready⟩
      simp [hempty] at this
  · rintro s hs hne
    obtain ⟨v, rfl, hbits⟩ := hs
    have hv : (ic.withPending v).HandlersRegistered := h
    obtain ⟨hnone, -⟩ | ⟨line, hready, hmin, hd⟩ := dispatch_spec hv
    · obtain ⟨l, hl⟩ := hne
      exact absurd (Finset.mem_filter.1 hl).2 (hnone l)
    · refine ⟨line, by simp [hready], _, fun l hl => hmin l (Finset.mem_filter.1 hl).2,
        hready.2, hd, DrainedFrom.clear ⟨v, rfl, hbits⟩ hready, ?_⟩
      ext l
      rw [Finset.mem_erase, Finset.mem_filter, Finset.mem_filter, and_comm (a := l ≠ line)]
      simp only [Finset.mem_univ, true_and]
      exact ready_clear

theorem handlersRegistered_of_reachable (h : controller.Reachable init ic) :
    ic.HandlersRegistered := by
  refine h.invariant handlersRegistered_init ?_
  rintro ic op _ hic rfl
  exact hic.perform op

/-- **Draining order.**  Calling `dispatch` until it returns `false` invokes the handlers of the
lines that are enabled, pending and have a handler, once each, in the order of priority value and
id; it takes as many successful dispatches as there are such lines, clears their pending bits, and
changes nothing else. -/
theorem dispatch_drains (h : controller.Reachable init ic) :
    ∃ (lines : List (Fin maxInterrupts)) (v : UInt32),
      lines.Pairwise (fun j k => ic.rank j < ic.rank k) ∧
      (∀ line, line ∈ lines ↔ ic.Ready line) ∧
      lines.length = (Finset.univ.filter ic.Ready).card ∧
      (∀ line, v &&& bit line ≠ 0 ↔
        ic.pendingRegister.read &&& bit line ≠ 0 ∧ ¬ ic.Ready line) ∧
      ∀ hs ic', Loop dispatch ic hs ic' ↔
        hs.map some = lines.map ic.handlers ∧ ic' = ic.withPending v := by
  obtain ⟨lines, hs, v, hsorted, hmem, hhs, hbits, hloop⟩ :=
    drains_of_handlersRegistered (handlersRegistered_of_reachable h)
  have hnodup : lines.Nodup := hsorted.imp fun {j k} hlt heq => by
    rw [heq] at hlt
    exact lt_irrefl _ hlt
  have hset : lines.toFinset = Finset.univ.filter ic.Ready := by
    ext line
    simp [hmem]
  refine ⟨lines, v, hsorted, hmem, ?_, hbits, fun hs' ic' => ⟨?_, ?_⟩⟩
  · rw [← hset, List.toFinset_card_of_nodup hnodup]
  · intro hl
    obtain ⟨rfl, rfl⟩ := hloop.unique hl
    exact ⟨hhs, rfl⟩
  · rintro ⟨hhs', rfl⟩
    have : hs' = hs := (Option.some_injective H).list_map (hhs'.trans hhs.symm)
    rwa [this]

/-- Two lines, of which the one with the larger id is more urgent. -/
def twoLines : InterruptController String :=
  [.registerInterrupt 3, .registerHandler 3 (some "uart"), .enable 3, .trigger 3,
    .registerInterrupt 5, .registerHandler 5 (some "timer"), .setPriority 5 1, .enable 5,
    .trigger 5].foldl perform init

theorem dispatch_drains_twoLines :
    ∃ lines : List (Fin maxInterrupts), lines.length = 2 ∧
      ∀ hs ic', Loop dispatch twoLines hs ic' → hs.map some = lines.map twoLines.handlers := by
  obtain ⟨lines, v, -, -, hlen, -, hloop⟩ := dispatch_drains ⟨_, run_foldl init _⟩
  refine ⟨lines, hlen.trans ?_, fun hs ic' hl => ((hloop hs ic').1 hl).1⟩
  decide +kernel

end InterruptController

end Kernel

end EFS
