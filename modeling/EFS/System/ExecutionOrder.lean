import EFS.Data.SortedPrefix
import EFS.System.EventRuns

/-!
# The order of execution

`pendingEvents` sorts all pending events, and `executeReadyEvents` first splits off the ready ones
and sorts those.  Ids are unique as long as they do not wrap, so both follow the same strict order,
and the ready events are a prefix of the list (`executes_pending`).
-/

namespace EFS

namespace System

variable {Cb : Type}

namespace Event

variable {a b : Event Cb}

theorem before_iff : a.before b ↔ a.cycle.toNat < b.cycle.toNat ∨
    a.cycle.toNat = b.cycle.toNat ∧ a.id.toNat < b.id.toNat := by
  unfold before
  by_cases h : a.cycle = b.cycle
  · simp [h, UInt64.lt_iff_toNat_lt]
  · have hne : a.cycle.toNat ≠ b.cycle.toNat := fun he => h (UInt64.toNat.inj he)
    simp [h, hne, UInt64.lt_iff_toNat_lt]

instance : Std.Total fun a b : Event Cb => ¬ b.before a where
  total a b := by
    rw [before_iff, before_iff]
    omega

instance : IsTrans (Event Cb) fun a b => ¬ b.before a where
  trans a b c := by
    rw [before_iff, before_iff, before_iff]
    omega

theorem id_eq_of_not_before (hab : ¬ a.before b) (hba : ¬ b.before a) : a.id = b.id := by
  rw [before_iff] at hab hba
  exact UInt64.toNat.inj (by omega)

/-- The sorted list is strictly increasing if no two events have the same id. -/
theorem pairwise_stableSort {events : List (Event Cb)} (h : (events.map Event.id).Nodup) :
    (stableSort events).Pairwise before := by
  have hsorted : (stableSort events).Pairwise fun a b => ¬ b.before a :=
    List.pairwise_insertionSort _ events
  have hids : (stableSort events).Pairwise fun a b => a.id ≠ b.id :=
    List.pairwise_map.1 (((perm_stableSort events).map _).nodup_iff.2 h)
  refine (hsorted.and hids).imp ?_
  rintro a b ⟨hle, hne⟩
  by_contra hnot
  exact hne (id_eq_of_not_before hnot hle)

theorem stableSort_filter {events : List (Event Cb)} {p : Event Cb → Bool}
    (h : (events.map Event.id).Nodup) :
    stableSort (events.filter p) = (stableSort events).filter p := by
  refine insertionSort_filter ?_
  intro a ha b hb hab hba
  exact List.inj_on_of_nodup_map h ha hb (id_eq_of_not_before hba hab)

end Event

/-- The ready events are those at the front of `pendingEvents`. -/
theorem takeReady_eq {s : EventScheduler Cb} (h : s.ids.Nodup) (c : UInt64) :
    (s.takeReady c).1 = s.pendingEvents.takeWhile (fun ev => ev.cycle ≤ c) ∧
      (s.takeReady c).2.pendingEvents = s.pendingEvents.dropWhile (fun ev => ev.cycle ≤ c) := by
  have hclosed (a b : Event Cb) (hab : a.before b) (hb : decide (b.cycle ≤ c) = true) :
      decide (a.cycle ≤ c) = true := by
    rw [decide_eq_true_eq, UInt64.le_iff_toNat_le] at hb ⊢
    rw [Event.before_iff] at hab
    omega
  obtain ⟨hready, hrest⟩ := filter_eq_takeWhile (Event.pairwise_stableSort h) hclosed
  refine ⟨(Event.stableSort_filter h).trans hready, (Event.stableSort_filter h).trans ?_⟩
  simp only [decide_not]
  exact hrest

/-! ### One call -/

/-- Callbacks that do nothing. -/
def idle : Batch Cb → List (EventCall Cb) := fun _ => []

/-- The loop over a batch, if its callbacks do nothing. -/
theorem land_startNext (s : Recorded Cb) (c : UInt64) (batch : List (Event Cb)) (n : ℕ)
    (h : ∀ ev ∈ batch, ev.callback ≠ none) (gs : List (Batch Cb × List (EventCall Cb))) :
    Relation.ReflTransGen (fun x y => (eventComponent Cb).next idle x = some y)
      ((eventComponent Cb).land idle gs (s.startNext c n batch))
      ({ s with
        executed := (batch.map fun ev => (ev.id, c)).reverse ++ s.executed
        results := (n + batch.length) :: s.results }, gs) := by
  induction batch generalizing s n with
  | nil => exact .refl
  | cons ev rest ih =>
    obtain ⟨f, hf⟩ := Option.ne_none_iff_exists'.1 (h ev List.mem_cons_self)
    -- the callback is entered, and returns at once
    have hrest := ih { s with executed := (ev.id, c) :: s.executed } (n + 1) fun ev' hev' =>
      h ev' (List.mem_cons_of_mem ev hev')
    have hlist : ((ev :: rest).map fun ev => (ev.id, c)).reverse ++ s.executed =
        (rest.map fun ev => (ev.id, c)).reverse ++ (ev.id, c) :: s.executed := by simp
    have hlen : n + (ev :: rest).length = n + 1 + rest.length := by
      rw [List.length_cons]
      omega
    rw [hlist, hlen]
    simp only [Recorded.startNext, hf]
    exact .head rfl hrest

theorem returnsTo_executeReadyEvents (s : Recorded Cb) (c : UInt64)
    (h : ∀ ev ∈ s.sched.events, ev.callback ≠ none) :
    (eventComponent Cb).ReturnsTo idle s (.executeReadyEvents c) { s with
      sched := (s.sched.takeReady c).2
      executed := ((s.sched.takeReady c).1.map fun ev => (ev.id, c)).reverse ++ s.executed
      results := (s.sched.takeReady c).1.length :: s.results } := by
  intro gs
  show Relation.ReflTransGen _ ((eventComponent Cb).land idle gs (s.executeReadyEvents c)) _
  rw [Recorded.executeReadyEvents]
  split_ifs with hempty
  · rw [EventScheduler.takeReady_of_empty (List.isEmpty_iff.1 hempty)]
    exact .refl
  · have hloop := land_startNext { s with sched := (s.sched.takeReady c).2 } c
      (s.sched.takeReady c).1 0 (fun ev hev => h ev (s.sched.mem_takeReady.1 hev).1) gs
    rwa [Nat.zero_add] at hloop

/-- **Order of execution.**  At every operation boundary, `pendingEvents` is strictly increasing,
and `executeReadyEvents` calls the callbacks of the events at its front that are ready, in that
order, returns their number and leaves the others pending, if these callbacks do nothing. -/
theorem executes_pending {c : Recorded Cb × List (Batch Cb)}
    (h : (eventMachine Cb).Reachable eventStart c) (cycle : UInt64) :
    let pending := c.1.sched.pendingEvents
    let ready := pending.takeWhile fun ev => ev.cycle ≤ cycle
    pending.Perm c.1.sched.events ∧ pending.Pairwise Event.before ∧
      (∀ ev ∈ pending, ev ∈ ready ↔ ev.cycle ≤ cycle) ∧
      ∃ t, (eventComponent Cb).ReturnsTo idle c.1 (.executeReadyEvents cycle) t ∧
        t.executed = (ready.map fun ev => (ev.id, cycle)).reverse ++ c.1.executed ∧
        t.results = ready.length :: c.1.results ∧
        t.sched.pendingEvents = pending.dropWhile fun ev => ev.cycle ≤ cycle := by
  have hcons := conserved_of_reachable h
  have hids : c.1.sched.ids.Nodup := (hcons.perm.nodup hcons.nodup).of_append_left
  obtain ⟨hready, hrest⟩ := takeReady_eq hids cycle
  intro pending ready
  refine ⟨c.1.sched.perm_pendingEvents, Event.pairwise_stableSort hids, ?_, _,
    returnsTo_executeReadyEvents c.1 cycle fun ev hev => (hcons.pending_ok ev hev).1, ?_, ?_, hrest⟩
  · intro ev hev
    have hmem : ev ∈ ready ↔ ev ∈ (c.1.sched.takeReady cycle).1 := hready ▸ Iff.rfl
    rw [hmem, EventScheduler.mem_takeReady]
    exact and_iff_right (c.1.sched.perm_pendingEvents.mem_iff.1 hev)
  · rw [hready]
  · rw [hready]

/-- Of two events that were scheduled in the other order, the ready one is executed. -/
theorem executes_pending_example :
    let scheduled := (eventComponent Unit).after eventStart
      [.schedule (some ()) 5 "b", .schedule (some ()) 1 "a"]
    ∃ t, (eventComponent Unit).ReturnsTo idle scheduled.1 (.executeReadyEvents 3) t ∧
      t.executed = [(2, 3)] ∧ t.results = [1] := by
  intro scheduled
  have hreach : (eventMachine Unit).Reachable eventStart scheduled :=
    Reentrant.reachable_after (by decide)
  obtain ⟨-, -, -, t, hreturns, hexecuted, hresults, -⟩ := executes_pending hreach 3
  exact ⟨t, hreturns, hexecuted, hresults⟩

end System

end EFS
