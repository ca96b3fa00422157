import EFS.Kernel.Draining
import EFS.LTS.Reentrant

/-!
# Interrupt requests

`dispatch` clears the line that it serves before it calls the handler, and the handler may call the
controller again: trigger its own line, or dispatch in turn.  `requestComponent` is the controller
as a re-entrant component; a frame is a handler that is running.

A request stays pending until its line is served or the request is discarded, and a line is not
served more often than it was triggered (`request_not_lost`).
-/

namespace EFS

namespace Kernel

open Mmio

namespace InterruptController

variable {H : Type}

/-- A handler that is running, and its line. -/
structure Service (H : Type) where
  line : Fin maxInterrupts
  handler : H

/-- `dispatch` up to the call of the handler; behind it, it only returns. -/
def serve (ic : InterruptController H) : Outcome (InterruptController H) (Service H) :=
  match ic.highestPriority (ic.enableRegister.read &&& ic.pendingRegister.read), ic.dispatch with
  | some line, (ic', some handler) => .entered ic' ⟨line, handler⟩
  | _, (ic', _) => .returned ic'

/-- The controller as a re-entrant component.  A call that throws leaves it as it was. -/
def requestComponent (H : Type) : Reentrant (InterruptController H) (Op H) (Service H) where
  call ic
    | .dispatch => ic.serve
    | op => .returned (ic.perform op)
  resume ic _ := .returned ic
  unwind ic _ := ic

/-- A call of the controller with the handler it enters, or the end of a handler. -/
abbrev RequestLabel (H : Type) := Reentrant.Label (Op H) (Service H)

/-- The controller with arbitrary code around it that does not write the PENDING register, and
handlers that do not throw. -/
def requestMachine (H : Type) : LTS (InterruptController H × List (Service H)) (RequestLabel H) :=
  ((requestComponent H).lts fun _ op => ∀ value, op ≠ .writePending value).restrict
    fun _ l => l ≠ .throw

/-- The step calls `trigger(id)`. -/
def triggers (id : UInt8) : RequestLabel H → Bool
  | .call (.trigger id') _ => id' = id
  | _ => false

/-- The step invokes the handler of line `id`. -/
def serves (id : UInt8) (l : RequestLabel H) : Bool :=
  l.entered.any fun f => (f.line : ℕ) = id.toNat

/-- The step calls `clear(id)`, `unregisterInterrupt(id)` or `reset()`. -/
def discards (id : UInt8) : RequestLabel H → Bool
  | .call (.clear id') _ | .call (.unregisterInterrupt id') _ => id' = id
  | .call .reset _ => true
  | _ => false

/-- The bit of the line is set in PENDING. -/
def Pending (ic : InterruptController H) (line : Fin maxInterrupts) : Prop :=
  ic.pendingRegister.read &&& bit line ≠ 0

instance (ic : InterruptController H) : DecidablePred ic.Pending :=
  fun _ => inferInstanceAs (Decidable (_ ≠ _))

/-! ### One operation -/

variable {ic : InterruptController H} {id : UInt8} {line : Fin maxInterrupts}

theorem or_bit_ne_zero (v : UInt32) (line l : Fin maxInterrupts) :
    (v ||| bit line) &&& bit l ≠ 0 ↔ v &&& bit l ≠ 0 ∨ l = line := by
  have hline : (line : ℕ) < 32 := line.isLt
  rw [and_bit_ne_zero, and_bit_ne_zero]
  simp only [UInt32.toBitVec_or, toBitVec_bit, BitVec.getLsbD_or, BitVec.getLsbD_twoPow, hline,
    decide_true, Bool.true_and, Bool.or_eq_true, decide_eq_true_eq, Fin.ext_iff]
  rw [eq_comm (a := (line : ℕ))]

/-- What an operation other than `dispatch` may do to the PENDING register. -/
inductive PendingChange (ic : InterruptController H) : Op H → Register → Prop
  | kept (op : Op H) : PendingChange ic op ic.pendingRegister
  | trigger {id : UInt8} {line : Fin maxInterrupts} (h : validateInterruptId id = .ok line) :
      PendingChange ic (.trigger id)
        (ic.pendingRegister.write (ic.pendingRegister.read ||| bit line))
  | clear {id : UInt8} {line : Fin maxInterrupts} (h : validateInterruptId id = .ok line) :
      PendingChange ic (.clear id)
        (ic.pendingRegister.write (ic.pendingRegister.read &&& ~~~bit line))
  | unregisterInterrupt {id : UInt8} {line : Fin maxInterrupts}
      (h : validateInterruptId id = .ok line) :
      PendingChange ic (.unregisterInterrupt id)
        (ic.pendingRegister.write (ic.pendingRegister.read &&& ~~~bit line))
  | reset : PendingChange ic .reset ic.pendingRegister.reset

theorem pendingChange_perform {op : Op H} (hdispatch : op ≠ .dispatch)
    (hwrite : ∀ value, op ≠ .writePending value) :
    PendingChange ic op (ic.perform op).pendingRegister := by
  -- a call on a line that throws changes nothing
  have hline {id : UInt8} {f : Fin maxInterrupts → Except String (InterruptController H)}
      {op : Op H} (hf : ∀ line, validateInterruptId id = .ok line →
        PendingChange ic op (ic.orUnchanged (f line)).pendingRegister) :
      PendingChange ic op (ic.orUnchanged (validateInterruptId id >>= f)).pendingRegister :=
    orUnchanged_validated (P := fun ic' => PendingChange ic op ic'.pendingRegister) (.kept op) hf
  have hline' {id : UInt8} {f : Fin maxInterrupts → Except String (InterruptController H × Bool)}
      {op : Op H} (hf : ∀ line, validateInterruptId id = .ok line →
        PendingChange ic op (ic.orUnchanged ((f line).map Prod.fst)).pendingRegister) :
      PendingChange ic op
        (ic.orUnchanged ((validateInterruptId id >>= f).map Prod.fst)).pendingRegister :=
    orUnchanged_validated_fst (P := fun ic' => PendingChange ic op ic'.pendingRegister)
      (.kept op) hf
  cases op with
  | registerInterrupt id | registerHandler id callback | unregisterHandler id =>
    refine hline' ?_
    intro line _
    split_ifs <;> exact .kept _
  | enable id | disable id | setPriority id priority =>
    refine hline ?_
    intro line _
    split_ifs <;> exact .kept _
  | unregisterInterrupt id =>
    refine hline' ?_
    intro line hv
    split_ifs with hreg
    · rw [disable_of_valid hv hreg]
      simp only [bind, Except.bind, InterruptController.clear, hv, hreg]
      exact .unregisterInterrupt hv
    · exact .kept _
  | trigger id =>
    refine hline ?_
    intro line hv
    split_ifs
    · exact .trigger hv
    · exact .kept _
  | clear id =>
    refine hline ?_
    intro line hv
    split_ifs
    · exact .clear hv
    · exact .kept _
  | dispatch => exact absurd rfl hdispatch
  | reset => exact .reset
  | writeEnable value | writePriority value => exact .kept _
  | writePending value => exact absurd rfl (hwrite value)

/-- `dispatch` serves a pending line and clears it, or does nothing. -/
theorem serve_spec (h : ic.HandlersRegistered) :
    ic.serve = .returned ic ∨ ∃ line handler, ic.Pending line ∧
      ic.serve = .entered { ic with
        pendingRegister := ic.pendingRegister.write (ic.pendingRegister.read &&& ~~~bit line) }
        ⟨line, handler⟩ := by
  have hbest := selectBest_spec (c := ic.Ready) (List.pairwise_lt_finRange maxInterrupts)
    (fun line => (ic.priorities line).toNat)
  rw [← highestPriority_eq] at hbest
  cases hp : ic.highestPriority (ic.enableRegister.read &&& ic.pendingRegister.read) with
  | none =>
    refine .inl ?_
    simp only [serve, dispatch, hp]
  | some line =>
    rw [hp] at hbest
    have hready := hbest.2.1
    obtain ⟨handler, hhandler⟩ := Option.isSome_iff_exists.1 hready.2
    refine .inr ⟨line, handler, ((and_and_bit_ne_zero line).1 hready.1).2, ?_⟩
    simp only [serve, dispatch, hp, clear_of_registered (h line hready.2), hhandler]

/-! ### One step -/

/-- What holds of the controller at every operation boundary. -/
structure Sound (ic : InterruptController H) : Prop where
  handlersRegistered : ic.HandlersRegistered
  resetsIdle : ic.pendingRegister.initialValue = 0

/-- What a step does to the requests of a line. -/
structure RequestStep (id : UInt8) (line : Fin maxInterrupts) (ic : InterruptController H)
    (l : RequestLabel H) (ic' : InterruptController H) : Prop where
  sound : ic'.Sound
  kept : ic.Pending line → ic'.Pending line ∨ serves id l = true ∨ discards id l = true
  raised : ic'.Pending line → ic.Pending line ∨ triggers id l = true
  served : serves id l = true → ic.Pending line ∧ ¬ ic'.Pending line

theorem validateInterruptId_eq_ok {id : UInt8} {line : Fin maxInterrupts} :
    validateInterruptId id = .ok line ↔ id.toNat = line := by
  rw [validateInterruptId]
  split_ifs with h
  · simp [Fin.ext_iff]
  · have hline := line.isLt
    refine iff_of_false (by rintro ⟨⟩) ?_
    omega

theorem requestStep_call {op : Op H} (h : ic.Sound) (hid : id.toNat = line)
    (hdispatch : op ≠ .dispatch) (hwrite : ∀ value, op ≠ .writePending value) :
    RequestStep id line ic (.call op none) (ic.perform op) := by
  have hchange : PendingChange ic op (ic.perform op).pendingRegister :=
    pendingChange_perform hdispatch hwrite
  -- two ids of the line are the same id
  have hsame {id' : UInt8} {line' : Fin maxInterrupts}
      (hv : validateInterruptId id' = .ok line') (hl : line = line') : id' = id :=
    UInt8.toNat.inj (by rw [validateInterruptId_eq_ok.1 hv, hid, hl])
  have hstep : (ic.perform op).pendingRegister.initialValue = 0 ∧
      (ic.Pending line → (ic.perform op).Pending line ∨
        discards id (.call op none : RequestLabel H) = true) ∧
      ((ic.perform op).Pending line →
        ic.Pending line ∨ triggers id (.call op none : RequestLabel H) = true) := by
    simp only [Pending]
    generalize (ic.perform op).pendingRegister = p at hchange
    cases hchange with
    | kept => exact ⟨h.resetsIdle, .inl, .inl⟩
    | trigger hv =>
      rw [Register.read_write, or_bit_ne_zero]
      exact ⟨h.resetsIdle, fun hp => .inl (.inl hp),
        Or.imp_right fun hl => decide_eq_true (hsame hv hl)⟩
    | @clear _ line' hv | @unregisterInterrupt _ line' hv =>
      rw [Register.read_write, and_not_bit_ne_zero]
      refine ⟨h.resetsIdle, ?_, fun hp => .inl hp.1⟩
      intro hp
      by_cases hl : line = line'
      · exact .inr (decide_eq_true (hsame hv hl))
      · exact .inl ⟨hp, hl⟩
    | reset =>
      rw [Register.read_reset, h.resetsIdle]
      exact ⟨h.resetsIdle, fun _ => .inr rfl, fun hp => absurd UInt32.zero_and hp⟩
  exact ⟨⟨h.handlersRegistered.perform op, hstep.1⟩,
    fun hp => (hstep.2.1 hp).imp_right .inr, hstep.2.2,
    fun hserves => absurd hserves Bool.false_ne_true⟩

theorem requestStep_serve (h : ic.Sound) (hid : id.toNat = line) :
    RequestStep id line ic (.call .dispatch ic.serve.frame?) ic.serve.state := by
  obtain hs | ⟨served, handler, hpending, hs⟩ := serve_spec h.handlersRegistered
  · rw [hs]
    exact ⟨h, .inl, .inl, fun hserves => absurd hserves Bool.false_ne_true⟩
  · rw [hs]
    have hserves : serves id (.call .dispatch (some ⟨served, handler⟩) : RequestLabel H) = true ↔
        line = served := by
      simp [serves, Reentrant.Label.entered, hid, Fin.ext_iff, eq_comm]
    refine ⟨⟨h.handlersRegistered.of_eq rfl rfl, h.resetsIdle⟩, ?_, ?_, ?_⟩
    · intro hp
      by_cases hl : line = served
      · exact .inr (.inl (hserves.2 hl))
      · exact .inl ((and_not_bit_ne_zero _ _ _).2 ⟨hp, hl⟩)
    · intro hp
      exact .inl ((and_not_bit_ne_zero _ _ _).1 hp).1
    · intro hl
      obtain rfl := hserves.1 hl
      exact ⟨hpending, fun hp => ((and_not_bit_ne_zero _ _ _).1 hp).2 rfl⟩

/-- **Step lemma.** -/
theorem requestStep {c d : InterruptController H × List (Service H)} {l : RequestLabel H}
    (h : c.1.Sound) (hst : (requestMachine H).step c l d) (hid : id.toNat = line) :
    RequestStep id line c.1 l d.1 := by
  obtain ⟨hthrow, hst, hguard⟩ := hst
  cases hst with
  | call ic fs op =>
    have hwrite := hguard op _ rfl
    by_cases hdispatch : op = .dispatch
    · subst hdispatch
      exact requestStep_serve h hid
    · have hcall : (requestComponent H).call ic op = .returned (ic.perform op) := by
        cases op <;> first | rfl | exact absurd rfl hdispatch
      rw [hcall]
      exact requestStep_call h hid hdispatch hwrite
  | ret ic f fs => exact ⟨h, .inl, .inl, fun hserves => absurd hserves Bool.false_ne_true⟩
  | throw ic f fs => exact absurd rfl hthrow

/-! ### Runs -/

variable {b c d : InterruptController H × List (Service H)} {ks ms : List (RequestLabel H)}

theorem sound_init : (init : InterruptController H).Sound :=
  ⟨handlersRegistered_init, rfl⟩

theorem sound_of_run (h : (requestMachine H).Run (init, []) ks c) : c.1.Sound :=
  h.invariant (I := fun c => c.1.Sound) sound_init fun _ _ _ hs hst =>
    have hid : (0 : UInt8).toNat = (⟨0, by decide⟩ : Fin maxInterrupts) := rfl
    (requestStep hs hst hid).sound

/-- A pending request is kept until it is served or discarded. -/
theorem pending_of_run (h : b.1.Sound) (hrun : (requestMachine H).Run b ms c)
    (hid : id.toNat = line) (hp : b.1.Pending line) :
    c.1.Pending line ∨ ∃ l ∈ ms, serves id l = true ∨ discards id l = true := by
  have hkept : c.1.Sound ∧
      (c.1.Pending line ∨ ∃ l ∈ ms, serves id l = true ∨ discards id l = true) := by
    refine hrun.history (I := fun ms c => c.1.Sound ∧ (c.1.Pending line ∨
      ∃ l ∈ ms, serves id l = true ∨ discards id l = true)) ⟨h, .inl hp⟩ ?_
    rintro ms c l d ⟨hs, hkept⟩ hst
    have hstep := requestStep hs hst hid
    refine ⟨hstep.sound, ?_⟩
    rcases hkept with hp | ⟨m, hm, hdone⟩
    · exact (hstep.kept hp).imp_right fun hl => ⟨l, by simp, hl⟩
    · exact .inr ⟨m, List.mem_append_left _ hm, hdone⟩
  exact hkept.2

/-- A line is not served more often than it is triggered. -/
theorem countP_serves_le (hrun : (requestMachine H).Run (init, []) ks c)
    (hid : id.toNat = line) : ks.countP (serves id) ≤ ks.countP (triggers id) := by
  have hcount : c.1.Sound ∧ ks.countP (serves id) ≤ ks.countP (triggers id) ∧
      (c.1.Pending line → ks.countP (serves id) < ks.countP (triggers id)) := by
    -- along the run; a pending request has been triggered and not been served
    refine hrun.history (I := fun ks c => c.1.Sound ∧
      ks.countP (serves id) ≤ ks.countP (triggers id) ∧
      (c.1.Pending line → ks.countP (serves id) < ks.countP (triggers id)))
      ⟨sound_init, le_rfl, fun hp => absurd UInt32.zero_and hp⟩ ?_
    rintro ks c l d ⟨hs, hle, hlt⟩ hst
    have hstep := requestStep hs hst hid
    refine ⟨hstep.sound, ?_⟩
    rw [List.countP_append, List.countP_append, List.countP_singleton, List.countP_singleton]
    by_cases hserves : serves id l = true
    · -- a request is used up
      obtain ⟨hp, hnot⟩ := hstep.served hserves
      have hbefore := hlt hp
      rw [if_pos hserves]
      exact ⟨by omega, fun hp => absurd hp hnot⟩
    · rw [if_neg hserves]
      refine ⟨by omega, ?_⟩
      intro hp
      rcases hstep.raised hp with hp | htriggers
      · have hbefore := hlt hp
        omega
      · rw [if_pos htriggers]
        omega
  exact hcount.2.1

theorem pending_trigger (hst : (requestMachine H).step b (.call (.trigger id) none) c)
    (hreg : b.1.isRegistered id = true) : ∃ line : Fin maxInterrupts,
      id.toNat = line ∧ c.1.Pending line := by
  rw [isRegistered] at hreg
  cases hv : validateInterruptId id with
  | error e => simp [hv] at hreg
  | ok line =>
    obtain ⟨-, hst, -⟩ := hst
    cases hst with
    | call ic fs =>
      have hreg : ic.registered line = true := by simpa [hv] using hreg
      have htrigger : ic.perform (.trigger id) = { ic with
          pendingRegister := ic.pendingRegister.write (ic.pendingRegister.read ||| bit line) } := by
        simp [perform, trigger, orUnchanged, hv, hreg, bind, Except.bind, pure, Except.pure]
      refine ⟨line, validateInterruptId_eq_ok.1 hv, ?_⟩
      show (ic.perform (.trigger id)).Pending line
      rw [htrigger]
      exact (or_bit_ne_zero _ _ _).2 (.inr rfl)

/-- **No request is lost.**  In every run of the controller, a handler is not invoked more often
than its line is triggered; and after a registered line was triggered, it is pending at every
operation boundary, until its handler is invoked or the request is discarded. -/
theorem request_not_lost (hrun : (requestMachine H).Run (init, []) ks b) :
    (∀ id, ks.countP (serves id) ≤ ks.countP (triggers id)) ∧
      ∀ id c ms d, b.1.isRegistered id = true →
        (requestMachine H).step b (.call (.trigger id) none) c → (requestMachine H).Run c ms d →
        d.1.pending id = .ok true ∨ ∃ l ∈ ms, serves id l = true ∨ discards id l = true := by
  refine ⟨?_, ?_⟩
  · intro id
    by_cases hid : id.toNat < maxInterrupts
    · have hline : id.toNat = (⟨id.toNat, hid⟩ : Fin maxInterrupts) := rfl
      exact countP_serves_le hrun hline
    · -- a line with this id does not exist
      have hnone : ks.countP (serves id) = 0 := by
        refine List.countP_eq_zero.2 ?_
        intro l _ hserves
        obtain ⟨f, -, hf⟩ := Option.any_eq_true _ _ |>.1 hserves
        exact hid (of_decide_eq_true hf ▸ f.line.isLt)
      omega
  · intro id c ms d hreg hst hrun'
    obtain ⟨line, hid, hp⟩ := pending_trigger hst hreg
    have hsound := (requestStep (sound_of_run hrun) hst hid).sound
    refine (pending_of_run hsound hrun' hid hp).imp_left ?_
    intro hp
    have hv : validateInterruptId id = .ok line := validateInterruptId_eq_ok.2 hid
    have hpending : d.1.pending id = .ok (decide (d.1.Pending line)) := by
      simp only [pending, hv]
      rfl
    rw [hpending, decide_eq_true hp]

theorem run_requests {os : List (Op H)} (h : (requestComponent H).Allowed
    (fun _ op => ∀ value, op ≠ .writePending value) c os) : (requestMachine H).Run c
      ((requestComponent H).labels c os) ((requestComponent H).after c os) := by
  refine (Reentrant.run_after os h).restrict ?_
  intro _ l hl
  rintro rfl
  exact Reentrant.throw_notMem_labels hl

/-- A line that is triggered by its own handler is pending. -/
theorem request_not_lost_example : ((requestComponent Unit).after (init, [])
    [.registerInterrupt 3, .registerHandler 3 (some ()), .enable 3, .trigger 3, .dispatch,
      .trigger 3]).1.pending 3 = .ok true := by
  let os : List (Op Unit) :=
    [.registerInterrupt 3, .registerHandler 3 (some ()), .enable 3, .trigger 3, .dispatch]
  have hrun : (requestMachine Unit).Run (init, []) _
      ((requestComponent Unit).after (init, []) os) :=
    run_requests ⟨by simp, by simp, by simp, by simp, by simp, trivial⟩
  have hst : (requestMachine Unit).step ((requestComponent Unit).after (init, []) os)
      (.call (.trigger 3) none) ((requestComponent Unit).after (init, []) (os ++ [.trigger 3])) :=
    ⟨by simp, Reentrant.lts_call (by simp)⟩
  rcases (request_not_lost hrun).2 3 _ [] _ (by decide) hst (.nil _) with h | ⟨l, hl, -⟩
  · exact h
  · cases hl

end InterruptController

end Kernel

end EFS
