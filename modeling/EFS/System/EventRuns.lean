import EFS.System.EventScheduler

/-!
# The event scheduler under arbitrary use

Callbacks may call the scheduler again, also `executeReadyEvents`, so several batches can be in
progress at once, one inside the other.  `eventComponent` is the scheduler as a re-entrant
component whose frames are these batches.  Its state records what has become of every event that was
scheduled; `Conserved` says that the record is complete:

an event that was scheduled is pending, waits in a batch, has been executed, was cancelled, was
cleared, or was dropped with its batch when a callback threw, and only one of these.

In runs without exceptions nothing is dropped, and between calls no batch is in progress
(`event_accounted`).
-/

namespace EFS

namespace System

variable {Cb : Type}

/-- What a call of `executeReadyEvents` has left to do while a callback is running. -/
structure Batch (Cb : Type) where
  /-- The argument of the call. -/
  currentCycle : UInt64
  /-- The event whose callback is running. -/
  event : Event Cb
  /-- The events after it. -/
  rest : List (Event Cb)
  /-- How many callbacks have returned. -/
  executed : ℕ

/-- An event scheduler, and what has happened to its events. -/
structure Recorded (Cb : Type) where
  sched : EventScheduler Cb
  /-- The events scheduled, with their cycles. -/
  issued : List (EventId × UInt64)
  /-- The events whose callbacks were called, with the argument of `executeReadyEvents`. -/
  executed : List (EventId × UInt64)
  /-- The events for which `cancel` returned true. -/
  cancelled : List EventId
  /-- The events removed by `clear`. -/
  cleared : List EventId
  /-- The events of a batch that was left by an exception. -/
  dropped : List EventId
  /-- What the calls of `executeReadyEvents` returned. -/
  results : List ℕ

/-- The operations of the event scheduler. -/
inductive EventCall (Cb : Type) where
  | schedule (callback : Option Cb) (cycle : UInt64) (description : String)
  | cancel (eventId : EventId)
  | clear
  | executeReadyEvents (currentCycle : UInt64)

namespace Recorded

variable (s : Recorded Cb)

/-- The loop of `executeReadyEvents` : calls the next callback of the batch, or returns. -/
def startNext (currentCycle : UInt64) (executed : ℕ) :
    List (Event Cb) → Outcome (Recorded Cb) (Batch Cb)
  | [] => .returned { s with results := executed :: s.results }
  | ev :: rest =>
    match ev.callback with
    | some _ => .entered { s with executed := (ev.id, currentCycle) :: s.executed }
        ⟨currentCycle, ev, rest, executed⟩
    | none => startNext currentCycle executed rest

/-- `schedule()`; an event with a callback is recorded as issued. -/
def schedule (callback : Option Cb) (cycle : UInt64) (description : String) : Recorded Cb :=
  let scheduled := s.sched.schedule callback cycle description
  { s with
    sched := scheduled.2
    issued := if callback.isSome then (scheduled.1, cycle) :: s.issued else s.issued }

/-- `cancel()`; an event that was pending is recorded as cancelled. -/
def cancel (eventId : EventId) : Recorded Cb :=
  let cancelled := s.sched.cancel eventId
  { s with
    sched := cancelled.2
    cancelled := if cancelled.1 then eventId :: s.cancelled else s.cancelled }

/-- `clear()`; what was pending is recorded as cleared. -/
def clear : Recorded Cb :=
  { s with sched := s.sched.clear, cleared := s.sched.ids ++ s.cleared }

/-- `executeReadyEvents` up to its first callback; without pending events it returns 0 at once. -/
def executeReadyEvents (currentCycle : UInt64) : Outcome (Recorded Cb) (Batch Cb) :=
  if s.sched.events.isEmpty then .returned { s with results := 0 :: s.results }
  else
    let taken := s.sched.takeReady currentCycle
    startNext { s with sched := taken.2 } currentCycle 0 taken.1

/-- An exception leaves the call: the rest of its batch is gone. -/
def drop (b : Batch Cb) : Recorded Cb := { s with dropped := b.rest.map Event.id ++ s.dropped }

/-- Calling callbacks removes no event without executing it. -/
theorem startNext_record (c : UInt64) (n : ℕ) (batch : List (Event Cb)) :
    (s.startNext c n batch).state.cancelled = s.cancelled ∧
      (s.startNext c n batch).state.cleared = s.cleared ∧
      (s.startNext c n batch).state.dropped = s.dropped ∧
      (s.startNext c n batch).state.issued = s.issued := by
  induction batch with
  | nil => exact ⟨rfl, rfl, rfl, rfl⟩
  | cons ev rest ih =>
    simp only [startNext]
    split
    · exact ⟨rfl, rfl, rfl, rfl⟩
    · exact ih

theorem executeReadyEvents_record (c : UInt64) :
    (s.executeReadyEvents c).state.cancelled = s.cancelled ∧
      (s.executeReadyEvents c).state.cleared = s.cleared ∧
      (s.executeReadyEvents c).state.dropped = s.dropped ∧
      (s.executeReadyEvents c).state.issued = s.issued := by
  unfold executeReadyEvents
  split_ifs
  · exact ⟨rfl, rfl, rfl, rfl⟩
  · exact startNext_record ..

end Recorded

/-- The event scheduler as a re-entrant component. -/
def eventComponent (Cb : Type) : Reentrant (Recorded Cb) (EventCall Cb) (Batch Cb) where
  call s
    | .schedule callback cycle description => .returned (s.schedule callback cycle description)
    | .cancel eventId => .returned (s.cancel eventId)
    | .clear => .returned s.clear
    | .executeReadyEvents currentCycle => s.executeReadyEvents currentCycle
  resume s b := s.startNext b.currentCycle (b.executed + 1) b.rest
  unwind s b := s.drop b

/-- Fewer than `2 ^ 64` events are scheduled. -/
def WithinIds (s : Recorded Cb) : EventCall Cb → Prop
  | .schedule _ _ _ => s.issued.length + 1 < 2 ^ 64
  | _ => True

instance (s : Recorded Cb) : (o : EventCall Cb) → Decidable (WithinIds s o)
  | .schedule _ _ _ => inferInstanceAs (Decidable (s.issued.length + 1 < 2 ^ 64))
  | .cancel _ | .clear | .executeReadyEvents _ => isTrue trivial

/-- The event scheduler with arbitrary code around it. -/
def eventMachine (Cb : Type) :
    LTS (Recorded Cb × List (Batch Cb)) (Reentrant.Label (EventCall Cb) (Batch Cb)) :=
  (eventComponent Cb).lts WithinIds

/-- A new event scheduler. -/
def eventStart : Recorded Cb × List (Batch Cb) := (⟨.init, [], [], [], [], [], []⟩, [])

/-- The events that wait in batches, with the arguments of their calls. -/
def waiting (bs : List (Batch Cb)) : List (Event Cb × UInt64) :=
  bs.flatMap fun b => b.rest.map (·, b.currentCycle)

/-- The ids of events that wait in batches. -/
def waitingIds (w : List (Event Cb × UInt64)) : List EventId := w.map fun e => e.1.id

/-- The record is complete, where `w` are the events that wait in batches. -/
structure Conserved (s : Recorded Cb) (w : List (Event Cb × UInt64)) : Prop where
  /-- Every event scheduled is in one place. -/
  perm : (s.issued.map Prod.fst).Perm (s.sched.ids ++ (waitingIds w ++
    (s.executed.map Prod.fst ++ (s.cancelled ++ (s.cleared ++ s.dropped)))))
  /-- Ids are handed out in order. -/
  nextId : s.sched.nextId = UInt64.ofNat (s.issued.length + 1)
  nodup : (s.issued.map Prod.fst).Nodup
  id_le : ∀ e ∈ s.issued, e.1.toNat ≤ s.issued.length
  id_pos : ∀ e ∈ s.issued, e.1 ≠ 0
  /-- Pending and waiting events have callbacks and the cycles they were scheduled for. -/
  pending_ok : ∀ ev ∈ s.sched.events, ev.callback ≠ none ∧ (ev.id, ev.cycle) ∈ s.issued
  waiting_ok : ∀ e ∈ w, e.1.callback ≠ none ∧ (e.1.id, e.1.cycle) ∈ s.issued ∧ e.1.cycle ≤ e.2
  executed_ok : ∀ e ∈ s.executed, ∃ cycle, (e.1, cycle) ∈ s.issued ∧ cycle ≤ e.2

namespace Conserved

variable {s : Recorded Cb} {w : List (Event Cb × UInt64)}

theorem schedule (h : Conserved s w) {callback : Option Cb} {cycle : UInt64}
    {description : String} (hlimit : s.issued.length + 1 < 2 ^ 64) :
    Conserved (s.schedule callback cycle description) w := by
  cases callback with
  | none => exact h
  | some f =>
    have hnext : s.sched.nextId.toNat = s.issued.length + 1 := by
      rw [h.nextId, UInt64.toNat_ofNat']
      exact Nat.mod_eq_of_lt hlimit
    -- the ids handed out so far are below the next one, which has not wrapped around
    have hfresh : s.sched.nextId ∉ s.issued.map Prod.fst := by
      intro hm
      obtain ⟨e, he, heq⟩ := List.mem_map.1 hm
      have := h.id_le e he
      rw [heq, hnext] at this
      omega
    refine ⟨?_, ?_, List.nodup_cons.2 ⟨hfresh, h.nodup⟩, ?_, ?_, ?_, ?_, ?_⟩
    · have := (h.perm.cons s.sched.nextId).trans List.perm_middle.symm
      simpa [Recorded.schedule, EventScheduler.schedule, EventScheduler.ids] using this
    · simp only [Recorded.schedule, EventScheduler.schedule, Option.isSome_some, ↓reduceIte,
        List.length_cons]
      rw [h.nextId, UInt64.ofNat_add (s.issued.length + 1) 1]
      rfl
    · intro e he
      rcases List.mem_cons.1 he with rfl | he
      · exact hnext.le
      · exact (h.id_le e he).trans (Nat.le_succ _)
    · intro e he
      rcases List.mem_cons.1 he with rfl | he
      · intro h0
        change s.sched.nextId = 0 at h0
        rw [h0] at hnext
        cases hnext
      · exact h.id_pos e he
    · intro ev hev
      rcases List.mem_append.1 hev with hev | hev
      · exact (h.pending_ok ev hev).imp_right (List.mem_cons_of_mem _)
      · obtain rfl := List.mem_singleton.1 hev
        exact ⟨by simp, List.mem_cons_self⟩
    · intro e he
      obtain ⟨h1, h2, h3⟩ := h.waiting_ok e he
      exact ⟨h1, List.mem_cons_of_mem _ h2, h3⟩
    · intro e he
      obtain ⟨c, hc, hle⟩ := h.executed_ok e he
      exact ⟨c, List.mem_cons_of_mem _ hc, hle⟩

theorem cancel (h : Conserved s w) (eventId : EventId) : Conserved (s.cancel eventId) w := by
  refine ⟨?_, (s.sched.cancel_nextId eventId).trans h.nextId, h.nodup, h.id_le, h.id_pos,
    fun ev hev => h.pending_ok ev (s.sched.mem_of_mem_cancel hev), h.waiting_ok, h.executed_ok⟩
  simp only [Recorded.cancel]
  cases hc : s.sched.cancel eventId with
  | mk b s' =>
    cases b with
    | false =>
      -- no pending event has this id
      have hself : (s.sched.cancel eventId).2 = s.sched := s.sched.cancel_eq_self (by rw [hc])
      rw [hc] at hself
      obtain rfl : s' = s.sched := hself
      exact h.perm
    | true =>
      -- the event moves from the pending to the cancelled ones
      refine h.perm.trans (((s.sched.perm_cancel hc).append_right _).trans ?_)
      simp only [↓reduceIte, List.cons_append]
      refine List.perm_middle.symm.trans (List.Perm.append_left _ ?_)
      refine List.perm_middle.symm.trans (List.Perm.append_left _ ?_)
      exact List.perm_middle.symm

theorem clear (h : Conserved s w) : Conserved s.clear w := by
  refine ⟨h.perm.trans ?_, h.nextId, h.nodup, h.id_le, h.id_pos, fun ev hev => (by cases hev),
    h.waiting_ok, h.executed_ok⟩
  -- the pending events move to the cleared ones
  have : s.clear.sched.ids = [] := rfl
  rw [this, List.nil_append]
  refine List.perm_append_comm_assoc _ _ _ |>.trans (List.Perm.append_left _ ?_)
  refine List.perm_append_comm_assoc _ _ _ |>.trans (List.Perm.append_left _ ?_)
  refine List.perm_append_comm_assoc _ _ _ |>.trans (List.Perm.append_left _ ?_)
  simp [Recorded.clear]

theorem start {ev : Event Cb} {c : UInt64} (h : Conserved s ((ev, c) :: w)) :
    Conserved { s with executed := (ev.id, c) :: s.executed } w := by
  refine ⟨h.perm.trans ?_, h.nextId, h.nodup, h.id_le, h.id_pos, h.pending_ok,
    fun e he => h.waiting_ok e (List.mem_cons_of_mem _ he), ?_⟩
  · refine List.Perm.append_left _ ?_
    simp only [waitingIds, List.map_cons, List.cons_append]
    exact List.perm_middle.symm
  · intro e he
    rcases List.mem_cons.1 he with rfl | he
    · obtain ⟨-, h2, h3⟩ := h.waiting_ok _ List.mem_cons_self
      exact ⟨ev.cycle, h2, h3⟩
    · exact h.executed_ok e he

theorem results (h : Conserved s w) (r : List ℕ) : Conserved { s with results := r } w :=
  ⟨h.perm, h.nextId, h.nodup, h.id_le, h.id_pos, h.pending_ok, h.waiting_ok, h.executed_ok⟩

/-- Events with a callback are not skipped: `startNext` calls the first one, if there is one. -/
theorem startNext {batch : List (Event Cb)} {c : UInt64} {n : ℕ}
    (h : Conserved s (batch.map (·, c) ++ w)) :
    Conserved (s.startNext c n batch).state
      (waiting (s.startNext c n batch).frame?.toList ++ w) := by
  cases batch with
  | nil => exact h.results _
  | cons ev rest =>
    have hne : ev.callback ≠ none := (h.waiting_ok (ev, c) (by simp)).1
    obtain ⟨f, hf⟩ := Option.ne_none_iff_exists'.1 hne
    simp only [Recorded.startNext, hf]
    simpa [waiting] using h.start

theorem takeReady (h : Conserved s w) (c : UInt64) :
    Conserved { s with sched := (s.sched.takeReady c).2 }
      ((s.sched.takeReady c).1.map (·, c) ++ w) := by
  refine ⟨h.perm.trans ?_, h.nextId, h.nodup, h.id_le, h.id_pos, ?_,
    ?_, h.executed_ok⟩
  · refine ((s.sched.perm_takeReady c).symm.append_right _).trans ?_
    have : waitingIds ((s.sched.takeReady c).1.map (·, c) ++ w) =
        (s.sched.takeReady c).1.map Event.id ++ waitingIds w := by
      simp [waitingIds]
    rw [this, List.append_assoc, List.append_assoc]
    exact List.perm_append_comm_assoc _ _ _
  · intro ev hev
    exact h.pending_ok ev (s.sched.mem_takeReady_events.1 hev).1
  · intro e he
    rcases List.mem_append.1 he with he | he
    · obtain ⟨ev, hev, rfl⟩ := List.mem_map.1 he
      obtain ⟨hm, hle⟩ := s.sched.mem_takeReady.1 hev
      obtain ⟨h1, h2⟩ := h.pending_ok ev hm
      exact ⟨h1, h2, hle⟩
    · exact h.waiting_ok e he

theorem executeReadyEvents (h : Conserved s w) (c : UInt64) :
    Conserved (s.executeReadyEvents c).state
      (waiting (s.executeReadyEvents c).frame?.toList ++ w) := by
  unfold Recorded.executeReadyEvents
  split_ifs
  · exact h.results _
  · exact (h.takeReady c).startNext

theorem drop {b : Batch Cb} (h : Conserved s (waiting [b] ++ w)) : Conserved (s.drop b) w := by
  refine ⟨h.perm.trans ?_, h.nextId, h.nodup, h.id_le, h.id_pos, h.pending_ok,
    fun e he => h.waiting_ok e (List.mem_append_right _ he), h.executed_ok⟩
  have : waitingIds (waiting [b] ++ w) = b.rest.map Event.id ++ waitingIds w := by
    simp [waitingIds, waiting]
  rw [this, List.append_assoc]
  -- the rest of the batch moves behind everything else
  refine List.Perm.append_left _ ?_
  simp only [Recorded.drop]
  refine List.perm_append_comm_assoc _ _ _ |>.trans (List.Perm.append_left _ ?_)
  refine List.perm_append_comm_assoc _ _ _ |>.trans (List.Perm.append_left _ ?_)
  refine List.perm_append_comm_assoc _ _ _ |>.trans (List.Perm.append_left _ ?_)
  exact List.perm_append_comm_assoc _ _ _

end Conserved

theorem waiting_append (bs bs' : List (Batch Cb)) :
    waiting (bs ++ bs') = waiting bs ++ waiting bs' := List.flatMap_append

/-- **Step lemma.**  Every step keeps the record complete. -/
theorem Conserved.step {c d : Recorded Cb × List (Batch Cb)}
    {l : Reentrant.Label (EventCall Cb) (Batch Cb)} (h : Conserved c.1 (waiting c.2))
    (hst : (eventMachine Cb).step c l d) : Conserved d.1 (waiting d.2) := by
  obtain ⟨hst, hG⟩ := hst
  cases hst with
  | call s fs o =>
    have ho := hG _ _ rfl
    cases o with
    | schedule callback cycle description => exact h.schedule ho
    | cancel eventId => exact h.cancel eventId
    | clear => exact h.clear
    | executeReadyEvents currentCycle =>
      rw [waiting_append]
      exact h.executeReadyEvents currentCycle
  | ret s b fs =>
    rw [waiting_append]
    exact Conserved.startNext h
  | throw s b fs =>
    have h : Conserved s (waiting ([b] ++ fs)) := h
    rw [waiting_append] at h
    exact h.drop

/-- **Run lemma.**  At every operation boundary the record is complete. -/
theorem conserved_of_reachable {c : Recorded Cb × List (Batch Cb)}
    (h : (eventMachine Cb).Reachable eventStart c) : Conserved c.1 (waiting c.2) := by
  refine h.invariant (I := fun c => Conserved c.1 (waiting c.2)) ?_ fun _ _ _ hc hst => hc.step hst
  exact ⟨.refl _, rfl, by simp [eventStart], by simp [eventStart], by simp [eventStart],
    by simp [eventStart, EventScheduler.init], by simp [waiting, eventStart], by simp [eventStart]⟩

/-! ### Runs without exceptions -/

/-- The runs in which no callback throws. -/
def calmMachine (Cb : Type) :
    LTS (Recorded Cb × List (Batch Cb)) (Reentrant.Label (EventCall Cb) (Batch Cb)) :=
  (eventMachine Cb).restrict fun _ l => l ≠ .throw

theorem dropped_of_calm {c : Recorded Cb × List (Batch Cb)}
    (h : (calmMachine Cb).Reachable eventStart c) : c.1.dropped = [] := by
  refine h.invariant (I := fun c => c.1.dropped = []) rfl ?_
  rintro c l d hc ⟨hl, hst, -⟩
  cases hst with
  | call s fs o =>
    cases o with
    | schedule callback cycle description => exact hc
    | cancel eventId => exact hc
    | clear => exact hc
    | executeReadyEvents currentCycle =>
      exact (s.executeReadyEvents_record currentCycle).2.2.1.trans hc
  | ret s b fs => exact (s.startNext_record ..).2.2.1.trans hc
  | throw s b fs => exact absurd rfl hl

/-- **Event conservation.**  In runs without exceptions an event is executed at most once, by a
call whose argument has reached its cycle; and when no call is in progress, every event scheduled is
pending, executed, cancelled or cleared, once and only one of these. -/
theorem event_accounted {c : Recorded Cb × List (Batch Cb)}
    (h : (calmMachine Cb).Reachable eventStart c) :
    (∀ id, (c.1.executed.map Prod.fst).count id ≤ 1) ∧
    (∀ e ∈ c.1.executed, ∃ cycle, (e.1, cycle) ∈ c.1.issued ∧ cycle ≤ e.2) ∧
    (c.2 = [] → ∀ e ∈ c.1.issued, c.1.sched.ids.count e.1 +
      (c.1.executed.map Prod.fst).count e.1 + c.1.cancelled.count e.1 +
      c.1.cleared.count e.1 = 1) := by
  obtain ⟨ls, hr⟩ := h
  have hcons := conserved_of_reachable ⟨ls, hr.of_restrict⟩
  have hcount : ∀ id, (c.1.issued.map Prod.fst).count id = _ := fun id => hcons.perm.count_eq id
  simp only [List.count_append] at hcount
  refine ⟨?_, hcons.executed_ok, ?_⟩
  · intro id
    have := List.nodup_iff_count_le_one.1 hcons.nodup id
    rw [hcount] at this
    omega
  · intro hnil e he
    have hone := List.count_eq_one_of_mem hcons.nodup (List.mem_map_of_mem (f := Prod.fst) he)
    rw [hcount, dropped_of_calm ⟨ls, hr⟩, hnil] at hone
    simp only [waiting, waitingIds, List.flatMap_nil, List.map_nil, List.count_nil] at hone
    omega

/-- An event is executed, and cancels one that is not ready. -/
theorem event_accounted_example : ∃ c, (calmMachine Unit).Reachable eventStart c ∧ c.2 = [] ∧
    c.1.issued = [(2, 5), (1, 1)] ∧ ∀ e ∈ c.1.issued, c.1.sched.ids.count e.1 +
      (c.1.executed.map Prod.fst).count e.1 + c.1.cancelled.count e.1 +
      c.1.cleared.count e.1 = 1 := by
  have hr : ∃ c, (calmMachine Unit).Run eventStart
      [.call (.schedule (some ()) 1 "a") none, .call (.schedule (some ()) 5 "b") none,
        .call (.executeReadyEvents 1) (some ⟨1, ⟨1, 1, some (), "a"⟩, [], 0⟩),
        .call (.cancel 2) none, .ret none] c ∧ c.2 = [] ∧ c.1.issued = [(2, 5), (1, 1)] :=
    ⟨_, .cons ⟨by simp, Reentrant.lts_call (by decide)⟩
      (.cons ⟨by simp, Reentrant.lts_call (by decide)⟩
      (.cons ⟨by simp, Reentrant.lts_call trivial⟩ (.cons ⟨by simp, Reentrant.lts_call trivial⟩
        (.single ⟨by simp, Reentrant.lts_ret⟩)))), rfl, rfl⟩
  obtain ⟨c, hr, hnil, hissued⟩ := hr
  exact ⟨c, ⟨_, hr⟩, hnil, hissued, (event_accounted ⟨_, hr⟩).2.2 hnil⟩

end System

end EFS
