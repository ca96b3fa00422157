import EFS.LTS.Reentrant
import Mathlib.Data.List.Sort

/-!
# The event scheduler

The state and the operations of `EventScheduler`.  Callbacks are left abstract: `Cb` is the type of
the callables handed to `schedule`, and `none` is an empty `std::function`.

`executeReadyEvents` first moves the ready events out of `m_events` into a sorted batch, and then
calls them one after the other.  Its first part is `takeReady`; between two callbacks, a `Batch` is
what the call has left to do.
-/

namespace EFS

namespace System

/-- `EventId`; 0 stands for no event. -/
abbrev EventId := UInt64

/-- An event: when it is due, and what it calls. -/
structure Event (Cb : Type) where
  id : EventId
  cycle : UInt64
  callback : Option Cb
  description : String

namespace Event

variable {Cb : Type}

/-- The order in which events are executed: by cycle, then by id. -/
def before (a b : Event Cb) : Prop :=
  if a.cycle ≠ b.cycle then a.cycle < b.cycle else a.id < b.id

instance : DecidableRel (before : Event Cb → Event Cb → Prop) := fun a b =>
  inferInstanceAs (Decidable (if a.cycle ≠ b.cycle then a.cycle < b.cycle else a.id < b.id))

/-- `std::stable_sort` with the comparison `before`. -/
def stableSort (events : List (Event Cb)) : List (Event Cb) :=
  events.insertionSort fun a b => ¬ b.before a

theorem perm_stableSort (events : List (Event Cb)) : (stableSort events).Perm events :=
  List.perm_insertionSort _ events

end Event

/-- The id of the next event, and the pending events in no particular order. -/
structure EventScheduler (Cb : Type) where
  nextId : EventId
  events : List (Event Cb)

namespace EventScheduler

variable {Cb : Type}

/-- A scheduler as its constructor leaves it. -/
def init : EventScheduler Cb := ⟨1, []⟩

variable (s : EventScheduler Cb)

/-- The ids of the pending events. -/
def ids : List EventId := s.events.map Event.id

/-- `schedule` : an event with a null callback is refused, otherwise it gets the next id. -/
def schedule (callback : Option Cb) (cycle : UInt64) (description : String) :
    EventId × EventScheduler Cb :=
  match callback with
  | none => (0, s)
  | some f =>
    (s.nextId, ⟨s.nextId + 1, s.events ++ [⟨s.nextId, cycle, some f, description⟩]⟩)

/-- `cancel` : removes the first pending event with this id. -/
def cancel (eventId : EventId) : Bool × EventScheduler Cb :=
  if eventId = 0 then (false, s)
  else if s.events.any fun ev => ev.id = eventId then
    (true, { s with events := s.events.eraseP fun ev => ev.id = eventId })
  else (false, s)

/-- `clear()` drops every pending event; the next id stays. -/
def clear : EventScheduler Cb := { s with events := [] }

/-- `pendingEvents()`, the first one due first. -/
def pendingEvents : List (Event Cb) := Event.stableSort s.events

/-- The first part of `executeReadyEvents` : the batch of ready events, in the order in which they
are executed, and the scheduler without them. -/
def takeReady (currentCycle : UInt64) : List (Event Cb) × EventScheduler Cb :=
  (Event.stableSort (s.events.filter fun ev => ev.cycle ≤ currentCycle),
    { s with events := s.events.filter fun ev => ¬ ev.cycle ≤ currentCycle })

theorem perm_pendingEvents : s.pendingEvents.Perm s.events := Event.perm_stableSort _

/-! ### Where the events are after an operation -/

theorem perm_cancel {eventId : EventId} {s' : EventScheduler Cb}
    (h : s.cancel eventId = (true, s')) : s.ids.Perm (eventId :: s'.ids) := by
  by_cases hany : eventId ≠ 0 ∧ (s.events.any fun ev => ev.id = eventId) = true
  · rw [cancel, if_neg hany.1, if_pos hany.2] at h
    obtain rfl := (Prod.mk.inj h).2
    obtain ⟨ev, hev, hid⟩ := List.any_eq_true.1 hany.2
    obtain ⟨a, l₁, l₂, -, ha, hl, he⟩ := List.exists_of_eraseP
      (p := fun ev : Event Cb => decide (ev.id = eventId)) hev hid
    have ha : a.id = eventId := of_decide_eq_true ha
    simp only [ids, he]
    rw [hl, List.map_append, List.map_cons, ha, List.map_append]
    exact List.perm_middle
  · exfalso
    rw [cancel] at h
    split_ifs at h with h₀ h₁
    · cases (Prod.mk.inj h).1
    · exact hany ⟨h₀, h₁⟩
    · cases (Prod.mk.inj h).1

theorem cancel_of_mem {eventId : EventId} (h : eventId ∈ s.ids) (h₀ : eventId ≠ 0) :
    (s.cancel eventId).1 = true := by
  obtain ⟨ev, hev, hid⟩ := List.mem_map.1 h
  have hany : (s.events.any fun ev => ev.id = eventId) = true :=
    List.any_eq_true.2 ⟨ev, hev, decide_eq_true hid⟩
  simp [cancel, h₀, hany]

theorem cancel_eq_self {eventId : EventId} (h : (s.cancel eventId).1 = false) :
    (s.cancel eventId).2 = s := by
  simp only [cancel] at h ⊢
  split_ifs at h ⊢
  · rfl
  · rfl

theorem mem_of_mem_cancel {eventId : EventId} {ev : Event Cb}
    (h : ev ∈ (s.cancel eventId).2.events) : ev ∈ s.events := by
  simp only [cancel] at h
  split_ifs at h
  · exact h
  · exact List.mem_of_mem_eraseP h
  · exact h

@[simp] theorem cancel_nextId (eventId : EventId) :
    (s.cancel eventId).2.nextId = s.nextId := by
  simp only [cancel]
  split_ifs <;> rfl

theorem nodup_cancel (h : s.ids.Nodup) (eventId : EventId) : (s.cancel eventId).2.ids.Nodup := by
  simp only [cancel]
  split_ifs
  · exact h
  · exact h.sublist (List.eraseP_sublist.map _)
  · exact h

theorem cancel_of_not_mem {eventId : EventId} (h : eventId ∉ s.ids) :
    (s.cancel eventId).2 = s := by
  have hnone : (s.events.any fun ev => ev.id = eventId) = false :=
    List.any_eq_false.2 fun ev hev hid => h (List.mem_map.2 ⟨ev, hev, of_decide_eq_true hid⟩)
  simp [cancel, hnone]

/-- The events that are left, if no two have the same id. -/
theorem mem_cancel_iff {eventId : EventId} {ev : Event Cb} (h : s.ids.Nodup) (h₀ : eventId ≠ 0) :
    ev ∈ (s.cancel eventId).2.events ↔ ev ∈ s.events ∧ ev.id ≠ eventId := by
  by_cases hmem : eventId ∈ s.ids
  · -- the ids after the removal are those before without this one
    have hfound : s.cancel eventId = (true, (s.cancel eventId).2) :=
      Prod.ext (s.cancel_of_mem hmem h₀) rfl
    have hrest : eventId ∉ (s.cancel eventId).2.ids :=
      (List.nodup_cons.1 ((s.perm_cancel hfound).nodup h)).1
    refine ⟨fun hev => ⟨s.mem_of_mem_cancel hev, fun he => hrest ?_⟩, fun ⟨hev, hne⟩ => ?_⟩
    · exact List.mem_map.2 ⟨ev, hev, he⟩
    · simp only [cancel]
      split_ifs
      · exact hev
      · exact (List.mem_eraseP_of_neg (by simpa using hne)).2 hev
      · exact hev
  · rw [s.cancel_of_not_mem hmem]
    exact ⟨fun hev => ⟨hev, fun he => hmem (he ▸ List.mem_map_of_mem hev)⟩, And.left⟩

theorem perm_takeReady_events (c : UInt64) :
    ((s.takeReady c).1 ++ (s.takeReady c).2.events).Perm s.events := by
  simp only [takeReady]
  refine ((Event.perm_stableSort _).append_right _).trans ?_
  simpa only [decide_not] using
    List.filter_append_perm (fun ev : Event Cb => decide (ev.cycle ≤ c)) s.events

theorem perm_takeReady (c : UInt64) :
    (s.takeReady c).1.map Event.id ++ (s.takeReady c).2.ids |>.Perm s.ids := by
  simp only [ids]
  rw [← List.map_append]
  exact (s.perm_takeReady_events c).map _

theorem takeReady_of_empty {s : EventScheduler Cb} (h : s.events = []) (c : UInt64) :
    s.takeReady c = ([], s) := by
  obtain ⟨nextId, events⟩ := s
  obtain rfl : events = [] := h
  rfl

theorem mem_takeReady {c : UInt64} {ev : Event Cb} :
    ev ∈ (s.takeReady c).1 ↔ ev ∈ s.events ∧ ev.cycle ≤ c := by
  rw [takeReady, (Event.perm_stableSort _).mem_iff, List.mem_filter]
  simp

theorem mem_takeReady_events {c : UInt64} {ev : Event Cb} :
    ev ∈ (s.takeReady c).2.events ↔ ev ∈ s.events ∧ ¬ ev.cycle ≤ c := by
  simp [takeReady]

end EventScheduler

end System

end EFS
