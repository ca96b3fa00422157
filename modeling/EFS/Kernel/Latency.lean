import EFS.Kernel.Lines

/-!
# How long an interrupt waits

A line that is ready is served before all lines of a lower rank.  So each `dispatch` that does not
serve it serves a line ahead of it, and only calls on other lines and writes to the registers can
put more lines there.

* `ahead` : how many ready lines are served first.
* `raises` : by how much an operation can add to them.
* `served_of_run` : once `dispatch` has been called more often than that, the line has been served.
-/

namespace EFS

namespace Kernel

open Mmio

/-- What `Ready` says about the state of one line. -/
def LineState.Ready {H : Type} (s : LineState H) : Prop :=
  s.enabled = true ∧ s.pending = true ∧ s.handler.isSome

namespace InterruptController

variable {H : Type}

/-- Line `l` is served before `line`. -/
def Precedes (ic : InterruptController H) (l line : Fin maxInterrupts) : Prop :=
  ic.Ready l ∧ ic.rank l < ic.rank line

instance (ic : InterruptController H) (line : Fin maxInterrupts) :
    DecidablePred (ic.Precedes · line) := fun _ => inferInstanceAs (Decidable (_ ∧ _))

/-- How many lines are served before `line`. -/
def ahead (ic : InterruptController H) (line : Fin maxInterrupts) : ℕ :=
  (Finset.univ.filter (ic.Precedes · line)).card

/-- The operation may take a line that is ready out of the queue, or to another place in it. -/
def Disturbs (line : Fin maxInterrupts) : Op H → Prop
  | .disable id | .clear id | .unregisterInterrupt id | .unregisterHandler id
  | .setPriority id _ => id.toNat = line
  | .reset => True
  | .writeEnable value | .writePending value => value &&& bit line = 0
  | _ => False

instance (line : Fin maxInterrupts) : DecidablePred (Disturbs line : Op H → Prop)
  | .disable _ | .clear _ | .unregisterInterrupt _ | .unregisterHandler _ | .setPriority _ _ =>
    inferInstanceAs (Decidable (_ = _))
  | .reset => isTrue trivial
  | .writeEnable _ | .writePending _ => inferInstanceAs (Decidable (_ = _))
  | .registerInterrupt _ | .enable _ | .trigger _ | .registerHandler _ _ | .dispatch
  | .writePriority _ => isFalse id

/-- How many lines the operation can put ahead of another one. -/
def raises : Op H → ℕ
  | .enable _ | .trigger _ | .registerHandler _ _ | .setPriority _ _ => 1
  | .writeEnable _ | .writePending _ => maxInterrupts
  | _ => 0

/-- The same for a step. -/
def putsAhead : RequestLabel H → ℕ
  | .call op _ => raises op
  | _ => 0

/-- The step calls `dispatch`. -/
def dispatches : RequestLabel H → Bool
  | .call .dispatch _ => true
  | _ => false

/-- The controller with arbitrary code around it, which does not disturb `line`. -/
def undisturbed (H : Type) (line : Fin maxInterrupts) :
    LTS (InterruptController H × List (Service H)) (RequestLabel H) :=
  (requestComponent H).lts fun _ op => ¬ Disturbs line op

/-! ### Lines that are ready -/

variable {ic ic' : InterruptController H} {line l : Fin maxInterrupts}

theorem ready_iff : ic.Ready l ↔ (ic.lineState l).Ready := by
  simp only [Ready, LineState.Ready, and_and_bit_ne_zero, lineState, hasBit, decide_eq_true_eq,
    and_assoc, ne_eq]

theorem ready_congr (h : ic'.lineState l = ic.lineState l) : ic'.Ready l ↔ ic.Ready l := by
  rw [ready_iff, ready_iff, h]

theorem rank_congr (h : (ic'.lineState l).priority = (ic.lineState l).priority) :
    ic'.rank l = ic.rank l := by
  have hpriority : ic'.priorities l = ic.priorities l := h
  rw [rank, rank, hpriority]

theorem precedes_congr (hl : ic'.lineState l = ic.lineState l)
    (hline : ic'.rank line = ic.rank line) : ic'.Precedes l line ↔ ic.Precedes l line := by
  rw [Precedes, Precedes, ready_congr hl, rank_congr (congrArg LineState.priority hl), hline]

theorem ahead_le_of_imp (h : ∀ l, ic'.Precedes l line → ic.Precedes l line) :
    ic'.ahead line ≤ ic.ahead line :=
  Finset.card_le_card (Finset.monotone_filter_right _ fun l _ => h l)

theorem ahead_le_succ {other : Fin maxInterrupts}
    (h : ∀ l, l ≠ other → ic'.Precedes l line → ic.Precedes l line) :
    ic'.ahead line ≤ ic.ahead line + 1 := by
  refine (Finset.card_le_card fun l hl => ?_).trans
    (Finset.card_insert_le other (Finset.univ.filter (ic.Precedes · line)))
  by_cases hother : l = other
  · exact hother ▸ Finset.mem_insert_self ..
  · refine Finset.mem_insert_of_mem (Finset.mem_filter.2 ⟨Finset.mem_univ l, ?_⟩)
    exact h l hother (Finset.mem_filter.1 hl).2

theorem ahead_lt {other : Fin maxInterrupts} (hother : ic.Precedes other line)
    (h : ∀ l, ic'.Precedes l line → ic.Precedes l line) (hnot : ¬ ic'.Precedes other line) :
    ic'.ahead line + 1 ≤ ic.ahead line := by
  refine Finset.card_lt_card (Finset.ssubset_iff_of_subset
    (Finset.monotone_filter_right _ fun l _ => h l) |>.2 ⟨other, ?_, ?_⟩)
  · exact Finset.mem_filter.2 ⟨Finset.mem_univ other, hother⟩
  · exact fun hmem => hnot (Finset.mem_filter.1 hmem).2

/-! ### One operation -/

/-- The line waits to be served. -/
structure Waits (ic : InterruptController H) (line : Fin maxInterrupts) : Prop where
  handlersRegistered : ic.HandlersRegistered
  ready : ic.Ready line

/-- A call on the line leaves it where it is, unless it disturbs it. -/
theorem ready_act {s : LineState H} {op : Op H} {id : UInt8} (hs : s.Ready)
    (hid : op.id? = some id) (hline : id.toNat = line) (hop : ¬ Disturbs line op) :
    (s.act op).Ready ∧ (s.act op).priority = s.priority := by
  obtain ⟨hen, hp, hh⟩ := hs
  cases op with
  | dispatch | reset | writeEnable _ | writePending _ | writePriority _ => cases hid
  | disable _ | clear _ | unregisterInterrupt _ | unregisterHandler _ | setPriority _ _ =>
    obtain rfl := Option.some.inj hid
    exact absurd hline hop
  | registerInterrupt _ => exact ⟨⟨hen, hp, hh⟩, rfl⟩
  | enable _ | trigger _ =>
    simp only [LineState.act, LineState.actRegistered]
    split_ifs
    · exact ⟨⟨by simp [hen], by simp [hp], hh⟩, rfl⟩
    · exact ⟨⟨hen, hp, hh⟩, rfl⟩
  | registerHandler _ callback =>
    simp only [LineState.act, LineState.actRegistered]
    split_ifs with _ hcallback
    · exact ⟨⟨hen, hp, hcallback⟩, rfl⟩
    · exact ⟨⟨hen, hp, hh⟩, rfl⟩
    · exact ⟨⟨hen, hp, hh⟩, rfl⟩

theorem ready_of_act {s : LineState H} {op : Op H} {id : UInt8} (hid : op.id? = some id)
    (hraises : raises op = 0) (h : (s.act op).Ready) :
    s.Ready ∧ (s.act op).priority = s.priority := by
  cases op with
  | dispatch | reset | writeEnable _ | writePending _ | writePriority _ => cases hid
  | enable _ | trigger _ | registerHandler _ _ | setPriority _ _ => cases hraises
  | registerInterrupt _ => exact ⟨h, rfl⟩
  | disable _ | clear _ | unregisterInterrupt _ | unregisterHandler _ =>
    simp only [LineState.act, LineState.actRegistered] at h ⊢
    split_ifs at h ⊢
    · obtain ⟨hen, hp, hh⟩ := h
      first | cases hen | cases hp | cases hh
    · exact ⟨h, rfl⟩

/-- A call on one line. -/
theorem Waits.call (h : ic.Waits line) {op : Op H} {id : UInt8} (hid : op.id? = some id)
    (hop : ¬ Disturbs line op) :
    (ic.perform op).Ready line ∧ (ic.perform op).ahead line ≤ ic.ahead line + raises op := by
  by_cases hvalid : id.toNat < maxInterrupts
  swap
  · -- the call throws, and changes nothing
    have hsame : ic.perform op = ic := by
      rw [perform_eq, call_of_invalid hid (not_lt.1 hvalid)]
      rfl
    rw [hsame]
    exact ⟨h.ready, Nat.le_add_right ..⟩
  obtain ⟨other, hother⟩ : ∃ other : Fin maxInterrupts, id.toNat = other :=
    ⟨⟨id.toNat, hvalid⟩, rfl⟩
  have hstep : LineStep ic other ((ic.lineState other).act op) (ic.perform op) :=
    lineStep_perform hid (validateInterruptId_eq_ok.2 hother)
  rcases eq_or_ne line other with rfl | hne
  · -- the line itself stays ready at its rank, and so do the others
    obtain ⟨hready, hpriority⟩ := ready_act (ready_iff.1 h.ready) hid hother hop
    rw [← hstep.here] at hready hpriority
    have hrank : (ic.perform op).rank line = ic.rank line := rank_congr hpriority
    refine ⟨ready_iff.2 hready, (ahead_le_of_imp fun l hl => ?_).trans (Nat.le_add_right ..)⟩
    have hl' : l ≠ line := by
      rintro rfl
      exact lt_irrefl _ hl.2
    exact (precedes_congr (hstep.others l hl') hrank).1 hl
  · have hline := hstep.others line hne
    have hrank : (ic.perform op).rank line = ic.rank line :=
      rank_congr (congrArg LineState.priority hline)
    have hothers {l : Fin maxInterrupts} (hl : l ≠ other) :
        (ic.perform op).Precedes l line → ic.Precedes l line :=
      (precedes_congr (hstep.others l hl) hrank).1
    refine ⟨(ready_congr hline).2 h.ready, ?_⟩
    -- a call that raises nothing puts no line ahead, and one that does puts the line `other` ahead
    -- at most
    rcases Nat.eq_zero_or_pos (raises op) with hraises | hraises
    · refine (ahead_le_of_imp fun l hl => ?_).trans (Nat.le_add_right ..)
      rcases eq_or_ne l other with rfl | hl'
      · obtain ⟨hready, hpriority⟩ :=
          ready_of_act hid hraises (hstep.here ▸ ready_iff.1 hl.1)
        rw [← hstep.here] at hpriority
        refine ⟨ready_iff.2 hready, ?_⟩
        rw [← rank_congr hpriority, ← hrank]
        exact hl.2
      · exact hothers hl' hl
    · exact (ahead_le_succ fun l => hothers).trans (Nat.add_le_add_left hraises _)

theorem ahead_le (ic : InterruptController H) (line : Fin maxInterrupts) :
    ic.ahead line ≤ maxInterrupts := by
  refine (Finset.card_le_univ _).trans ?_
  rw [Fintype.card_fin]

/-- **One operation** that does not serve a line. -/
theorem Waits.perform (h : ic.Waits line) {op : Op H} (hdispatch : op ≠ .dispatch)
    (hop : ¬ Disturbs line op) :
    (ic.perform op).Waits line ∧ (ic.perform op).ahead line ≤ ic.ahead line + raises op := by
  suffices hstep : (ic.perform op).Ready line ∧
      (ic.perform op).ahead line ≤ ic.ahead line + raises op from
    ⟨⟨h.handlersRegistered.perform op, hstep.1⟩, hstep.2⟩
  cases hid : op.id? with
  | some id => exact h.call hid hop
  | none =>
    have hready := (and_and_bit_ne_zero line).1 h.ready.1
    cases op with
    | dispatch => exact absurd rfl hdispatch
    | reset => exact absurd trivial hop
    | writeEnable value =>
      refine ⟨⟨(and_and_bit_ne_zero line).2 ⟨hop, hready.2⟩, h.ready.2⟩, ?_⟩
      exact (ahead_le ..).trans (Nat.le_add_left ..)
    | writePending value =>
      refine ⟨⟨(and_and_bit_ne_zero line).2 ⟨hready.1, hop⟩, h.ready.2⟩, ?_⟩
      exact (ahead_le ..).trans (Nat.le_add_left ..)
    | writePriority value => exact ⟨h.ready, le_rfl⟩
    | registerInterrupt _ | unregisterInterrupt _ | enable _ | disable _ | trigger _ | clear _
      | setPriority _ _ | registerHandler _ _ | unregisterHandler _ => cases hid

/-- `dispatch` does nothing, or it clears the first of the lines that are ready. -/
theorem serve_cases (h : ic.HandlersRegistered) :
    ((∀ l, ¬ ic.Ready l) ∧ ic.serve = .returned ic) ∨
      ∃ served handler, ic.Ready served ∧ ic.handlers served = some handler ∧
        (∀ l, ic.Ready l → l ≠ served → ic.rank served < ic.rank l) ∧
        ic.serve = .entered (ic.withPending (ic.pendingRegister.read &&& ~~~bit served))
          ⟨served, handler⟩ := by
  have hbest := selectBest_spec (c := ic.Ready) (List.pairwise_lt_finRange maxInterrupts)
    (fun line => (ic.priorities line).toNat)
  rw [← highestPriority_eq] at hbest
  cases hp : ic.highestPriority (ic.enableRegister.read &&& ic.pendingRegister.read) with
  | none =>
    rw [hp] at hbest
    refine .inl ⟨fun l => hbest l (List.mem_finRange l), ?_⟩
    simp only [InterruptController.serve, dispatch, hp]
  | some served =>
    rw [hp] at hbest
    obtain ⟨-, hready, hmin⟩ := hbest
    obtain ⟨handler, hhandler⟩ := Option.isSome_iff_exists.1 hready.2
    refine .inr ⟨served, handler, hready, hhandler,
      fun l hl hne => hmin l (List.mem_finRange l) hl hne, ?_⟩
    simp only [InterruptController.serve, dispatch, hp, clear_of_registered (h served hready.2),
      hhandler]
    rfl

/-- **One dispatch** serves the line, or one ahead of it. -/
theorem Waits.serve (h : ic.Waits line) :
    (∃ handler, ic.serve.frame? = some ⟨line, handler⟩) ∨
      ic.serve.state.Waits line ∧ ic.serve.state.ahead line + 1 ≤ ic.ahead line := by
  obtain ⟨hnone, -⟩ | ⟨served, handler, hready, -, hmin, hserve⟩ := serve_cases h.handlersRegistered
  · exact absurd h.ready (hnone line)
  · rw [hserve]
    rcases eq_or_ne line served with rfl | hne
    · exact .inl ⟨handler, rfl⟩
    · refine .inr ⟨⟨h.handlersRegistered, ready_clear.2 ⟨h.ready, hne⟩⟩, ?_⟩
      refine ahead_lt ⟨hready, hmin line h.ready hne⟩
        (fun l hl => ⟨(ready_clear.1 hl.1).1, hl.2⟩) ?_
      exact fun hl => (ready_clear.1 hl.1).2 rfl

/-! ### Runs -/

variable {b c : InterruptController H × List (Service H)} {ls : List (RequestLabel H)}

theorem call_of_ne {op : Op H} (hdispatch : op ≠ .dispatch) :
    (requestComponent H).call ic op = .returned (ic.perform op) := by
  cases op <;> first | rfl | exact absurd rfl hdispatch

/-- **Step lemma.** -/
theorem Waits.step {l : RequestLabel H} (h : b.1.Waits line)
    (hst : (undisturbed H line).step b l c) :
    (∃ handler, l.entered = some ⟨line, handler⟩) ∨
      c.1.Waits line ∧ c.1.ahead line + (dispatches l).toNat ≤ b.1.ahead line + putsAhead l := by
  obtain ⟨hst, hundisturbed⟩ := hst
  cases hst with
  | call ic fs op =>
    by_cases hdispatch : op = .dispatch
    · subst hdispatch
      exact h.serve
    · have hnot : dispatches (.call op none : RequestLabel H) = false := by
        cases op <;> first | rfl | exact absurd rfl hdispatch
      rw [call_of_ne hdispatch]
      exact .inr (hnot ▸ h.perform hdispatch (hundisturbed op _ rfl))
  | ret ic f fs => exact .inr ⟨h, le_rfl⟩
  | throw ic f fs => exact .inr ⟨h, le_rfl⟩

/-- **Run lemma.**  Until it is served, the line waits, and each dispatch serves a line ahead. -/
theorem Waits.run (h : b.1.Waits line) (hrun : (undisturbed H line).Run b ls c) :
    (∃ l ∈ ls, ∃ handler, l.entered = some ⟨line, handler⟩) ∨ c.1.Waits line ∧
      c.1.ahead line + ls.countP dispatches ≤ b.1.ahead line + (ls.map putsAhead).sum := by
  induction hrun with
  | nil => exact .inr ⟨h, le_rfl⟩
  | @cons b b' c l ls hst hrun ih =>
    rcases h.step hst with hserved | ⟨hwaits, hstep⟩
    · exact .inl ⟨l, List.mem_cons_self, hserved⟩
    · rcases ih hwaits with ⟨l', hl', hserved⟩ | ⟨hend, hrest⟩
      · exact .inl ⟨l', List.mem_cons_of_mem _ hl', hserved⟩
      · refine .inr ⟨hend, ?_⟩
        have hcount :
            (l :: ls).countP dispatches = ls.countP dispatches + (dispatches l).toNat := by
          rw [List.countP_cons]
          cases dispatches l <;> rfl
        rw [hcount, List.map_cons, List.sum_cons]
        omega

theorem handlersRegistered_of_requests
    (h : ((requestComponent H).lts fun _ _ => True).Reachable (init, []) b) :
    b.1.HandlersRegistered := by
  refine Reentrant.invariant h handlersRegistered_init (fun ic op _ hic => ?_) (fun _ _ hic => hic)
    fun _ _ hic => hic
  by_cases hdispatch : op = .dispatch
  · subst hdispatch
    change ic.serve.state.HandlersRegistered
    obtain hserve | ⟨line, handler, -, hserve⟩ := serve_spec hic
    · exact hserve ▸ hic
    · exact hserve ▸ hic.of_eq rfl rfl
  · exact call_of_ne hdispatch ▸ hic.perform op

/-- **Bounded latency.**  In whatever state of the controller a line is ready: when `dispatch` has
been called more often than there are lines ahead of it, counting those put there in the meantime,
the handler of the line has been invoked, whatever else was called in between. -/
theorem served_of_run (hreach : ((requestComponent H).lts fun _ _ => True).Reachable (init, []) b)
    (hready : b.1.Ready line) (hrun : (undisturbed H line).Run b ls c)
    (hcount : b.1.ahead line + (ls.map putsAhead).sum < ls.countP dispatches) :
    ∃ l ∈ ls, ∃ handler, l.entered = some ⟨line, handler⟩ := by
  have hwaits : b.1.Waits line := ⟨handlersRegistered_of_requests hreach, hready⟩
  rcases hwaits.run hrun with hserved | ⟨-, hle⟩
  · exact hserved
  · omega

/-- Line 1 is triggered while line 3 waits behind line 2. -/
theorem served_of_run_threeLines : ∃ (line : Fin maxInterrupts)
    (b c : InterruptController Unit × List (Service Unit)) (ls : List (RequestLabel Unit)),
    line.val = 3 ∧ b.1.Ready line ∧ b.1.ahead line = 1 ∧ (undisturbed Unit line).Run b ls c ∧
      (ls.map putsAhead).sum = 1 ∧ ls.countP dispatches = 3 ∧
      ∃ l ∈ ls, ∃ handler, l.entered = some ⟨line, handler⟩ := by
  let setUp (id : UInt8) : List (Op Unit) :=
    [.registerInterrupt id, .enable id, .registerHandler id (some ())]
  let os := [1, 2, 3].flatMap setUp ++ [.trigger 2, .trigger 3]
  let os' : List (Op Unit) := [.dispatch, .trigger 1, .dispatch, .dispatch]
  let b := (requestComponent Unit).after (init, []) os
  let line : Fin maxInterrupts := ⟨3, by decide⟩
  have hreach : ((requestComponent Unit).lts fun _ _ => True).Reachable (init, []) b :=
    Reentrant.reachable_after (by decide +kernel)
  have hrun : (undisturbed Unit line).Run b ((requestComponent Unit).labels b os')
      ((requestComponent Unit).after b os') := Reentrant.run_after os' (by decide +kernel)
  have hready : b.1.Ready line := by decide +kernel
  have hahead : b.1.ahead line = 1 := by decide +kernel
  have hraised : (((requestComponent Unit).labels b os').map putsAhead).sum = 1 := by
    decide +kernel
  have hcount : ((requestComponent Unit).labels b os').countP dispatches = 3 := by decide +kernel
  exact ⟨line, b, _, _, rfl, hready, hahead, hrun, hraised, hcount,
    served_of_run hreach hready hrun (by rw [hahead, hraised, hcount]; decide)⟩

end InterruptController

end Kernel

end EFS
