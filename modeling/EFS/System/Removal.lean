import EFS.System.EventRuns

/-!
# Cancelled and lost events

An event leaves the scheduler without being executed when it is cancelled or cleared while it is
pending, or when it waits in a batch behind a callback that throws; `gone_step_iff` says that there
is no other way.  Two things follow.

* `cancel` and `clear` only reach pending events.  An event that waits in the batch of an
  `executeReadyEvents` call in progress is executed all the same (`neverStarted_iff`).
* A callback that throws takes the rest of its batch with it (`nothingLost_iff`).
-/

namespace EFS

namespace System

variable {Cb : Type}

/-- Labels of the steps of `eventMachine`. -/
abbrev EventLabel (Cb : Type) := Reentrant.Label (EventCall Cb) (Batch Cb)

/-- The event was cancelled, cleared or dropped. -/
def Gone (s : Recorded Cb) (id : EventId) : Prop := id ∈ s.cancelled ++ (s.cleared ++ s.dropped)

/-- The step cancels or clears the pending event `id`, or throws with `id` waiting in the batch of
the throwing callback. -/
def Removes (c : Recorded Cb × List (Batch Cb)) (l : EventLabel Cb) (id : EventId) : Prop :=
  match l with
  | .call (.cancel eventId) _ => eventId = id ∧ id ∈ c.1.sched.ids
  | .call .clear _ => id ∈ c.1.sched.ids
  | .throw => ∃ b ∈ c.2.head?, id ∈ b.rest.map Event.id
  | _ => False

theorem Conserved.ne_zero {s : Recorded Cb} {w : List (Event Cb × UInt64)} (h : Conserved s w)
    {id : EventId} (hid : id ∈ s.sched.ids) : id ≠ 0 := by
  obtain ⟨ev, hev, rfl⟩ := List.mem_map.1 hid
  exact h.id_pos _ (h.pending_ok ev hev).2

theorem Conserved.gone_cancel {s : Recorded Cb} {w : List (Event Cb × UInt64)}
    (h : Conserved s w) (eventId id : EventId) :
    Gone (s.cancel eventId) id ↔ Gone s id ∨ eventId = id ∧ id ∈ s.sched.ids := by
  simp only [Gone, Recorded.cancel]
  by_cases hm : eventId ∈ s.sched.ids
  · rw [if_pos (s.sched.cancel_of_mem hm (h.ne_zero hm)), List.cons_append, List.mem_cons]
    constructor
    · rintro (rfl | hg)
      · exact .inr ⟨rfl, hm⟩
      · exact .inl hg
    · rintro (hg | ⟨rfl, -⟩)
      · exact .inr hg
      · exact .inl rfl
  · have hb : (s.sched.cancel eventId).1 ≠ true := by
      intro hb
      refine hm ?_
      rw [(s.sched.perm_cancel (Prod.ext hb rfl)).mem_iff]
      exact List.mem_cons_self
    rw [if_neg hb]
    refine ⟨.inl, fun h' => h'.resolve_right ?_⟩
    rintro ⟨rfl, hid⟩
    exact hm hid

/-- **Step lemma.**  An event is gone after a step exactly if it was gone before, or the step
removes it. -/
theorem Conserved.gone_step_iff {c d : Recorded Cb × List (Batch Cb)} {l : EventLabel Cb}
    (h : Conserved c.1 (waiting c.2)) (hst : (eventMachine Cb).step c l d) (id : EventId) :
    Gone d.1 id ↔ Gone c.1 id ∨ Removes c l id := by
  have hsame : ∀ {s s' : Recorded Cb}, s'.cancelled = s.cancelled ∧ s'.cleared = s.cleared ∧
      s'.dropped = s.dropped ∧ s'.issued = s.issued → (Gone s' id ↔ Gone s id ∨ False) := by
    rintro s s' ⟨h1, h2, h3, -⟩
    rw [Gone, Gone, h1, h2, h3, or_false]
  cases hst.1 with
  | call s fs o =>
    cases o with
    | schedule callback cycle description => exact hsame ⟨rfl, rfl, rfl, rfl⟩ |>.trans (by rfl)
    | cancel eventId => exact h.gone_cancel eventId id
    | clear =>
      simp only [Gone, Removes, eventComponent, Recorded.clear, Outcome.state_returned,
        List.mem_append]
      tauto
    | executeReadyEvents k => exact hsame (s.executeReadyEvents_record k)
  | ret s b fs => exact hsame (s.startNext_record ..)
  | throw s b fs =>
    simp only [Gone, Removes, eventComponent, Recorded.drop, List.mem_append, List.head?_cons,
      Option.mem_def, Option.some.injEq, exists_eq_left']
    tauto

theorem Conserved.gone_run {c d : Recorded Cb × List (Batch Cb)} {ls : List (EventLabel Cb)}
    (h : Conserved c.1 (waiting c.2)) (hr : (eventMachine Cb).Run c ls d) {id : EventId}
    (hg : Gone c.1 id) : Gone d.1 id :=
  (hr.invariant (I := fun c => Conserved c.1 (waiting c.2) ∧ Gone c.1 id) ⟨h, hg⟩
    fun _ _ _ hc hst => ⟨hc.1.step hst, (hc.1.gone_step_iff hst id).2 (.inl hc.2)⟩).2

theorem Conserved.count_le_one {s : Recorded Cb} {w : List (Event Cb × UInt64)}
    (h : Conserved s w) (id : EventId) : s.sched.ids.count id + ((waitingIds w).count id +
      ((s.executed.map Prod.fst).count id +
        (s.cancelled ++ (s.cleared ++ s.dropped)).count id)) ≤ 1 := by
  have := List.nodup_iff_count_le_one.1 h.nodup id
  rw [h.perm.count_eq id] at this
  simpa only [List.count_append] using this

theorem Conserved.not_executed_of_gone {s : Recorded Cb} {w : List (Event Cb × UInt64)}
    (h : Conserved s w) {id : EventId} (hg : Gone s id) : id ∉ s.executed.map Prod.fst := by
  intro hm
  have := h.count_le_one id
  have h1 := List.count_pos_iff.2 hg
  have h2 := List.count_pos_iff.2 hm
  omega

theorem Conserved.not_pending_of_gone {s : Recorded Cb} {w : List (Event Cb × UInt64)}
    (h : Conserved s w) {id : EventId} (hg : Gone s id) : id ∉ s.sched.ids := by
  intro hm
  have := h.count_le_one id
  have h1 := List.count_pos_iff.2 hg
  have h2 := List.count_pos_iff.2 hm
  omega

theorem Conserved.not_waiting_of_pending {s : Recorded Cb} {w : List (Event Cb × UInt64)}
    (h : Conserved s w) {id : EventId} (hid : id ∈ s.sched.ids) : id ∉ waitingIds w := by
  intro hm
  have := h.count_le_one id
  have h1 := List.count_pos_iff.2 hid
  have h2 := List.count_pos_iff.2 hm
  omega

theorem Conserved.place {s : Recorded Cb} {w : List (Event Cb × UInt64)} (h : Conserved s w)
    {id : EventId} (hid : id ∈ s.issued.map Prod.fst) : id ∈ s.sched.ids ∨ id ∈ waitingIds w ∨
      id ∈ s.executed.map Prod.fst ∨ Gone s id := by
  rw [h.perm.mem_iff] at hid
  simpa only [List.mem_append, Gone] using hid

/-! ### Cancelled events -/

/-- The callback of the event is not called in any continuation. -/
def NeverStarted (c : Recorded Cb × List (Batch Cb)) (id : EventId) : Prop :=
  ∀ ls d, (eventMachine Cb).Run c ls d → id ∉ d.1.executed.map Prod.fst

/-- The operation withdraws the event. -/
def Withdraws (id : EventId) : EventCall Cb → Prop
  | .cancel eventId => eventId = id
  | .clear => True
  | _ => False

/-- An event that waits in a batch is executed when the callbacks in progress return.  By induction
on the number of returns it takes: each of them ends a batch or starts an event. -/
theorem Conserved.starts_waiting {s : Recorded Cb} {bs : List (Batch Cb)}
    (h : Conserved s (waiting bs)) {id : EventId} (hid : id ∈ waitingIds (waiting bs)) :
    ∃ ls d, (eventMachine Cb).Run (s, bs) ls d ∧ id ∈ d.1.executed.map Prod.fst := by
  induction hn : (waiting bs).length + bs.length using Nat.strong_induction_on
    generalizing s bs with
  | _ n ih =>
    match bs, hid with
    | b :: bs, hid =>
      have hw : waiting (b :: bs) = b.rest.map (·, b.currentCycle) ++ waiting bs :=
        List.flatMap_cons
      have hret := Reentrant.lts_ret (R := eventComponent Cb) (G := WithinIds) (s := s) (f := b)
        (k := bs)
      have hnext := h.step hret
      cases hrest : b.rest with
      | nil =>
        -- the batch is finished, and the call returns to the callback below
        simp only [eventComponent, hrest, Recorded.startNext, Outcome.state_returned,
          Outcome.frame?_returned, Option.toList_none, List.nil_append] at hret hnext
        rw [hw, hrest] at hid hn
        obtain ⟨ls, d, hr, hm⟩ := ih _ (by simp at hn; omega) hnext hid rfl
        exact ⟨_, d, .cons hret hr, hm⟩
      | cons ev rest =>
        -- the callback of the next event is called, which waits no longer
        have hne : ev.callback ≠ none :=
          (h.waiting_ok (ev, b.currentCycle) (by rw [hw, hrest]; simp)).1
        obtain ⟨f, hf⟩ := Option.ne_none_iff_exists'.1 hne
        simp only [eventComponent, hrest, Recorded.startNext, hf, Outcome.state_entered,
          Outcome.frame?_entered, Option.toList_some, List.singleton_append] at hret hnext
        rw [hw, hrest] at hid hn
        simp only [waitingIds, List.map_append, List.map_cons, List.cons_append,
          List.mem_cons] at hid
        rcases hid with rfl | hid
        · exact ⟨_, _, .single hret, List.mem_cons_self⟩
        · obtain ⟨ls, d, hr, hm⟩ := ih _ (by
            simp only [List.map_cons, List.length_append, List.length_cons, waiting,
              List.flatMap_cons, List.length_map] at hn ⊢
            omega) hnext (by
            rw [waiting, List.flatMap_cons, waitingIds, List.map_append]
            exact hid) rfl
          exact ⟨_, d, .cons hret hr, hm⟩

section

variable {c d : Recorded Cb × List (Batch Cb)} {o : EventCall Cb} {e : Option (Batch Cb)}
  {id : EventId}

theorem Withdraws.stack (ho : Withdraws id o) (hst : (eventMachine Cb).step c (.call o e) d) :
    d.2 = c.2 := by
  cases hst.1 with
  | call s fs o => cases o <;> first | rfl | exact ho.elim

theorem Conserved.not_neverStarted (hc : Conserved c.1 (waiting c.2)) (ho : Withdraws id o)
    (hst : (eventMachine Cb).step c (.call o e) d) (hid : id ∈ waitingIds (waiting c.2)) :
    ¬ NeverStarted d id := by
  intro hnever
  have hd := hc.step hst
  obtain ⟨ls, d', hr, hm⟩ := hd.starts_waiting (by rwa [ho.stack hst])
  exact hnever ls d' hr hm

theorem Conserved.neverStarted (hc : Conserved c.1 (waiting c.2))
    (hissued : id ∈ c.1.issued.map Prod.fst) (hnot : id ∉ c.1.executed.map Prod.fst)
    (ho : Withdraws id o) (hst : (eventMachine Cb).step c (.call o e) d)
    (hid : id ∉ waitingIds (waiting c.2)) : NeverStarted d id := by
  have hgone : Gone d.1 id := by
    rw [hc.gone_step_iff hst]
    rcases hc.place hissued with hp | hp | hp | hp
    · right
      cases o with
      | cancel eventId => exact ⟨ho, hp⟩
      | clear => exact hp
      | schedule _ _ _ => exact ho.elim
      | executeReadyEvents _ => exact ho.elim
    · exact absurd hp hid
    · exact absurd hp hnot
    · exact .inl hp
  intro ls d' hr
  have hd := hc.step hst
  exact (hr.invariant (I := fun c => Conserved c.1 (waiting c.2)) hd
    fun _ _ _ h hst => h.step hst).not_executed_of_gone (hd.gone_run hr hgone)

/-- **Cancellation.**  After `cancel` or `clear`, an event whose callback had not been called is
never executed exactly when it was not waiting in the batch of a call in progress. -/
theorem neverStarted_iff (h : (eventMachine Cb).Reachable eventStart c)
    (hissued : id ∈ c.1.issued.map Prod.fst) (hnot : id ∉ c.1.executed.map Prod.fst)
    (ho : Withdraws id o) (hst : (eventMachine Cb).step c (.call o e) d) :
    NeverStarted d id ↔ id ∉ waitingIds (waiting c.2) := by
  have hc := conserved_of_reachable h
  exact ⟨fun hnever hid => hc.not_neverStarted ho hst hid hnever,
    hc.neverStarted hissued hnot ho hst⟩

end

/-- The callback of an event is running; another event is scheduled for cycle `cycle`. -/
def twoEvents (cycle : UInt64) : Recorded Unit × List (Batch Unit) :=
  (eventComponent Unit).after eventStart
    [.schedule (some ()) 1 "a", .schedule (some ()) cycle "b", .executeReadyEvents 1]

theorem neverStarted_twoEvents :
    NeverStarted ((twoEvents 5).1.cancel 2, (twoEvents 5).2) 2 :=
  (neverStarted_iff (o := .cancel 2) (Reentrant.reachable_after (by decide)) (by decide)
    (by decide) rfl (Reentrant.lts_call trivial)).2 (by decide)

/-- The other event is ready in the same call: cancelling it has no effect. -/
theorem not_neverStarted_twoEvents :
    (eventMachine Unit).Reachable eventStart (twoEvents 1) ∧
      (eventMachine Unit).step (twoEvents 1) (.call (.cancel 2) none)
        ((twoEvents 1).1.cancel 2, (twoEvents 1).2) ∧
      2 ∈ (twoEvents 1).1.issued.map Prod.fst ∧ 2 ∉ (twoEvents 1).1.executed.map Prod.fst ∧
      ¬ NeverStarted ((twoEvents 1).1.cancel 2, (twoEvents 1).2) 2 := by
  have hr : (eventMachine Unit).Reachable eventStart (twoEvents 1) :=
    Reentrant.reachable_after (by decide)
  have hst : (eventMachine Unit).step (twoEvents 1) (.call (.cancel 2) none)
      ((twoEvents 1).1.cancel 2, (twoEvents 1).2) := Reentrant.lts_call trivial
  exact ⟨hr, hst, by decide, by decide,
    (conserved_of_reachable hr).not_neverStarted (o := .cancel 2) rfl hst (by decide)⟩

/-! ### Exceptions -/

/-- The steps made while a call on top of the batches `bs` is in progress. -/
def inside (bs : List (Batch Cb)) : LTS (Recorded Cb × List (Batch Cb)) (EventLabel Cb) :=
  (eventMachine Cb).restrict fun c _ => bs.length < c.2.length

/-- Such steps that remove none of the events `ids`. -/
def insideKeeping (ids : List EventId) (bs : List (Batch Cb)) :
    LTS (Recorded Cb × List (Batch Cb)) (EventLabel Cb) :=
  (inside bs).restrict fun c l => ∀ id ∈ ids, ¬ Removes c l id

/-- Along a run, an event is not gone at the end exactly if no step removes it. -/
theorem Conserved.run_keeping_iff {c d : Recorded Cb × List (Batch Cb)}
    {ls : List (EventLabel Cb)} {ids : List EventId} {bs : List (Batch Cb)}
    (h : Conserved c.1 (waiting c.2)) (hr : (inside bs).Run c ls d)
    (hids : ∀ id ∈ ids, ¬ Gone c.1 id) :
    (∀ id ∈ ids, ¬ Gone d.1 id) ↔ (insideKeeping ids bs).Run c ls d := by
  constructor
  · intro hd
    induction hr with
    | nil c => exact .nil c
    | @cons c e d l ls hst hr ih =>
      -- what is not gone at the end is gone nowhere on the way
      have he := h.step hst.2
      have hne : ∀ id ∈ ids, ¬ Gone e.1 id := fun id hid hg =>
        hd id hid (he.gone_run hr.of_restrict hg)
      exact .cons ⟨fun id hid hrem => hne id hid ((h.gone_step_iff hst.2 id).2 (.inr hrem)), hst⟩
        (ih he hne hd)
  · intro hk
    refine (hk.invariant (I := fun c => Conserved c.1 (waiting c.2) ∧ ∀ id ∈ ids, ¬ Gone c.1 id)
      ⟨h, hids⟩ ?_).2
    rintro c l d ⟨hc, hg⟩ ⟨hkeep, -, hst⟩
    refine ⟨hc.step hst, ?_⟩
    intro id hid hd
    rcases (hc.gone_step_iff hst id).1 hd with hd | hd
    · exact hg id hid hd
    · exact hkeep id hid hd

/-- No event is forgotten. -/
theorem issued_step {c d : Recorded Cb × List (Batch Cb)} {l : EventLabel Cb}
    (hst : (eventMachine Cb).step c l d) {e : EventId × UInt64} (he : e ∈ c.1.issued) :
    e ∈ d.1.issued := by
  cases hst.1 with
  | call s fs o =>
    cases o with
    | schedule callback cycle description =>
      cases callback with
      | none => exact he
      | some f => exact List.mem_cons_of_mem _ he
    | cancel eventId => exact he
    | clear => exact he
    | executeReadyEvents k =>
      exact (s.executeReadyEvents_record k).2.2.2.symm ▸ he
  | ret s b fs => exact (s.startNext_record ..).2.2.2.symm ▸ he
  | throw s b fs => exact he

/-- `executeReadyEvents(k)`, called in `s` on top of the batches `bs`, is left by an exception
after the steps `ls`, in the state `s'`. -/
structure LeftByException (s : Recorded Cb) (bs : List (Batch Cb)) (k : UInt64)
    (c : Recorded Cb × List (Batch Cb)) (ls : List (EventLabel Cb)) (s' : Recorded Cb) :
    Prop where
  call : (eventMachine Cb).step (s, bs)
    (.call (.executeReadyEvents k) ((eventComponent Cb).call s (.executeReadyEvents k)).frame?) c
  run : (inside bs).Run c ls (s', bs)
  throws : ls.getLast? = some .throw

/-- Every event that was pending in `s` and has not been started is still pending in `s'`. -/
def NothingLost (s s' : Recorded Cb) : Prop :=
  ∀ id ∈ s.sched.ids, id ∉ s'.executed.map Prod.fst → id ∈ s'.sched.ids

/-- **Exceptions.**  When `executeReadyEvents` is left by an exception, no event that was pending
before is lost exactly when no step of the call removes one: none is cancelled or cleared, and none
waits in a batch behind a callback that throws. -/
theorem nothingLost_iff {s s' : Recorded Cb} {bs : List (Batch Cb)} {k : UInt64}
    {c : Recorded Cb × List (Batch Cb)} {ls : List (EventLabel Cb)}
    (h : (eventMachine Cb).Reachable eventStart (s, bs)) (hleft : LeftByException s bs k c ls s') :
    NothingLost s s' ↔ (insideKeeping s.sched.ids bs).Run c ls (s', bs) := by
  have hs : Conserved s (waiting bs) := conserved_of_reachable h
  have hc : Conserved c.1 (waiting c.2) := hs.step hleft.call
  have hrun := hleft.run.of_restrict
  have hs' : Conserved s' (waiting bs) := hrun.invariant
    (I := fun c => Conserved c.1 (waiting c.2)) hc fun _ _ _ h hst => h.step hst
  -- calling `executeReadyEvents` removes nothing by itself
  have hstart : ∀ id ∈ s.sched.ids, ¬ Gone c.1 id := by
    intro id hid hg
    rcases (hs.gone_step_iff hleft.call id).1 hg with hg | hg
    · exact hs.not_pending_of_gone hg hid
    · exact hg
  rw [← hc.run_keeping_iff hleft.run hstart]
  constructor
  · intro hlost id hid hg
    exact hs'.not_pending_of_gone hg (hlost id hid (hs'.not_executed_of_gone hg))
  · intro hkeep id hid hnot
    obtain ⟨ev, hev, rfl⟩ := List.mem_map.1 hid
    have hissued : (ev.id, ev.cycle) ∈ s'.issued :=
      hrun.invariant (I := fun c => (ev.id, ev.cycle) ∈ c.1.issued)
        (issued_step hleft.call (hs.pending_ok ev hev).2) fun _ _ _ h hst => issued_step hst h
    -- an event that is not pending is waiting, executed or gone
    rcases hs'.place (List.mem_map_of_mem (f := Prod.fst) hissued) with hp | hp | hp | hp
    · exact hp
    · exact absurd hp (hs.not_waiting_of_pending hid)
    · exact absurd hp hnot
    · exact absurd hp (hkeep _ hid)

/-- Two events are pending, the second one for cycle `cycle`. -/
def twoPending (cycle : UInt64) : Recorded Unit × List (Batch Unit) :=
  (eventComponent Unit).after eventStart
    [.schedule (some ()) 1 "a", .schedule (some ()) cycle "b"]

/-- The batch of `executeReadyEvents(1)` while the callback of the first event is running. -/
def firstBatch (rest : List (Event Unit)) : Batch Unit := ⟨1, ⟨1, 1, some (), "a"⟩, rest, 0⟩

theorem nothingLost_twoPending :
    NothingLost (twoPending 5).1 ((twoEvents 5).1.drop (firstBatch [])) := by
  have hthrow : (eventMachine Unit).step (twoEvents 5) .throw
      ((twoEvents 5).1.drop (firstBatch []), []) :=
    Reentrant.lts_throw (s := (twoEvents 5).1) (f := firstBatch []) (k := [])
  have hleft : LeftByException (twoPending 5).1 [] 1 (twoEvents 5) [.throw]
      ((twoEvents 5).1.drop (firstBatch [])) :=
    ⟨Reentrant.lts_call trivial, .single ⟨by decide, hthrow⟩, rfl⟩
  refine (nothingLost_iff (Reentrant.reachable_after (by decide)) hleft).2
    (.single ⟨?_, by decide, hthrow⟩)
  intro id _
  rintro ⟨b, hb, hid⟩
  cases hb
  cases hid

/-- The second event waits behind the callback that throws: it is lost. -/
theorem not_nothingLost_twoPending :
    (eventMachine Unit).Reachable eventStart (twoPending 1) ∧
      LeftByException (twoPending 1).1 [] 1 (twoEvents 1) [.throw]
        ((twoEvents 1).1.drop (firstBatch [⟨2, 1, some (), "b"⟩])) ∧
      ¬ NothingLost (twoPending 1).1
        ((twoEvents 1).1.drop (firstBatch [⟨2, 1, some (), "b"⟩])) := by
  refine ⟨Reentrant.reachable_after (by decide), ⟨Reentrant.lts_call trivial,
    .single ⟨by decide, ?_⟩, rfl⟩, fun h => absurd (h 2 (by decide) (by decide)) (by decide)⟩
  exact Reentrant.lts_throw (s := (twoEvents 1).1) (f := firstBatch [⟨2, 1, some (), "b"⟩])
    (k := [])

end System

end EFS
