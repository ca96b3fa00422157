import EFS.Drivers.EventDriven
import EFS.Drivers.TimerMove
import EFS.LTS.Histories
import EFS.System.DmaBus

/-!
# Detaching peripherals from the system bus

A `SystemBus` hands its timers a pointer to its clock, and its timers and DMA controllers one to its
event scheduler.  `detachTimer` and `detachDMA` take these back.  The destructor detaches the
timers, but it only forgets the DMA controllers.

* `noReferences_iff` : a bus that is destroyed leaves no references iff no DMA controller is
  attached.
* `not_noReferences_attached` : a DMA controller that is still attached keeps its scheduler.
-/

namespace EFS

namespace System

open EFS.Drivers

/-- A `SystemBus` with timers `T` and DMA controllers `D`.  The callback `.inl r` is that of the
timer `r`, and `.inr e` is one of others. -/
structure PeripheralBus (T D R H E : Type) extends DmaBus D R H (T ⊕ E) where
  /-- The timers attached to the bus, in order. -/
  timers : List T
  /-- The timer objects. -/
  timer : T → Timer

namespace PeripheralBus

variable {T D R H E : Type} [DecidableEq T] [DecidableEq D]

/-- The operations, whose pointers may be null. -/
inductive Op (T D : Type)
  | attachTimer (timer : Option T)
  | attachDMA (dma : Option D)
  | detachTimer (timer : Option T)
  | detachDMA (dma : Option D)

section

variable (b : PeripheralBus T D R H E)

/-- Writes a timer and the scheduler behind it. -/
def setTimer (r : T) (t : Timer × EventScheduler (T ⊕ E)) : PeripheralBus T D R H E :=
  { b with
    timer := Function.update b.timer r t.1
    dev := { b.dev with scheduler := t.2 } }

/-- `attachTimer()`, `false` for a null pointer or a timer already attached. -/
def attachTimer : Option T → Bool × PeripheralBus T D R H E
  | none => (false, b)
  | some r =>
    if r ∈ b.timers then (false, b)
    else
      let attached := ((b.timer r).attachClock b.clock).attachScheduler (.inl r) b.clock
        b.dev.scheduler
      (true, { b.setTimer r attached with timers := b.timers ++ [r] })

/-- `timer->detachClock()` and `timer->detachScheduler()`. -/
def release (r : T) : PeripheralBus T D R H E :=
  b.setTimer r ((b.timer r).detachClock.detachScheduler b.dev.scheduler)

/-- `detachTimer()`, `false` for a timer that is not attached. -/
def detachTimer : Option T → Bool × PeripheralBus T D R H E
  | none => (false, b)
  | some r =>
    if r ∈ b.timers then (true, { b.release r with timers := b.timers.erase r })
    else (false, b)

/-- `attachDMA()`, `false` for a null pointer or a controller already attached. -/
def attachDMA : Option D → Bool × PeripheralBus T D R H E
  | none => (false, b)
  | some d =>
    let (attached, bus) := b.toDmaBus.attachDMA d
    (attached, { b with toDmaBus := bus })

/-- `detachDMA()`, `false` for a controller that is not attached. -/
def detachDMA : Option D → Bool × PeripheralBus T D R H E
  | none => (false, b)
  | some d =>
    if d ∈ b.dmas then
      (true, { b with
        dma := Function.update b.dma d (b.dma d).detachScheduler
        dmas := b.dmas.erase d })
    else (false, b)

/-- The destructor. -/
def destroy : PeripheralBus T D R H E :=
  { b.timers.foldl release b with timers := [], dmas := [] }

/-- The result of an operation, and the bus after it. -/
def perform : Op T D → Bool × PeripheralBus T D R H E
  | .attachTimer timer => b.attachTimer timer
  | .attachDMA dma => b.attachDMA dma
  | .detachTimer timer => b.detachTimer timer
  | .detachDMA dma => b.detachDMA dma

variable (T D R H E) in
/-- The runs of a bus. -/
def lts : LTS (PeripheralBus T D R H E) (Op T D) where
  step b op b' := b' = (b.perform op).2

/-! ### References -/

/-- The timer holds no pointer to the clock or the scheduler. -/
def Released (t : Timer) : Prop := t.clock = false ∧ t.scheduler = false

/-- No peripheral holds a pointer to the clock or the scheduler. -/
structure NoReferences : Prop where
  timer : ∀ r, Released (b.timer r)
  dma : ∀ d, (b.dma d).scheduler = false

/-- No pending event is that of a timer that is not attached. -/
def NoDetachedEvents : Prop :=
  ∀ ev ∈ b.dev.scheduler.events, ∀ r, ev.callback = some (.inl r) → r ∈ b.timers

/-- A successful detach takes back what the peripheral holds, and its events. -/
def Detaches (op : Op T D) : Prop :=
  (b.perform op).1 = true →
    match op with
    | .detachTimer (some r) =>
      Released ((b.perform op).2.timer r) ∧ (b.perform op).2.NoDetachedEvents
    | .detachDMA (some d) =>
      ((b.perform op).2.dma d).scheduler = false ∧ (b.perform op).2.NoDetachedEvents
    | _ => True

/-- An event scheduled by `attachTimer` gets an id that is valid and not that of another event. -/
def FreshId : Op T D → Prop
  | .attachTimer (some r) => r ∉ b.timers → (b.timer r).Waiting →
    b.dev.scheduler.nextId ≠ 0 ∧ b.dev.scheduler.nextId ∉ b.dev.scheduler.ids
  | _ => True

/-- Nothing is attached yet. -/
structure Unattached : Prop where
  timers : b.timers = []
  dmas : b.dmas = []
  references : b.NoReferences
  ids : b.dev.scheduler.ids.Nodup
  events : b.NoDetachedEvents

/-- The peripherals that are attached hold the pointers, and no others. -/
structure Attached : Prop where
  timers : b.timers.Nodup
  dmas : b.dmas.Nodup
  timer : ∀ r, r ∉ b.timers → Released (b.timer r)
  scheduler : ∀ r ∈ b.timers, (b.timer r).scheduler = true
  dma : ∀ d, (b.dma d).scheduler = true ↔ d ∈ b.dmas

/-- An event of a timer is the one that the timer knows, and the timer is attached. -/
structure Tracked : Prop where
  ids : b.dev.scheduler.ids.Nodup
  known : ∀ ev ∈ b.dev.scheduler.events, ∀ r, ev.callback = some (.inl r) →
    r ∈ b.timers ∧ ev.id ≠ 0 ∧ ev.id = (b.timer r).scheduledEventId

end

variable {b : PeripheralBus T D R H E} {r u : T} {d : D}

/-! ### Timers -/

omit [DecidableEq T] [DecidableEq D] in
theorem Unattached.attached (h : b.Unattached) : b.Attached := by
  refine ⟨?_, ?_, fun r _ => h.references.timer r, ?_, ?_⟩
  · rw [h.timers]
    exact List.nodup_nil
  · rw [h.dmas]
    exact List.nodup_nil
  · intro r hr
    rw [h.timers] at hr
    exact absurd hr List.not_mem_nil
  · intro d
    rw [h.dmas, h.references.dma d]
    simp

omit [DecidableEq T] [DecidableEq D] in
theorem Unattached.tracked (h : b.Unattached) : b.Tracked := by
  refine ⟨h.ids, ?_⟩
  intro ev hev r hown
  have hr := h.events ev hev r hown
  rw [h.timers] at hr
  exact absurd hr List.not_mem_nil

omit [DecidableEq D] in
/-- A timer that is attached cancels the event it knows, and gets one if it waits for its match. -/
theorem attachTimer_spec (b : PeripheralBus T D R H E) (hr : r ∉ b.timers) : ∃ t sched cycle,
    b.attachTimer (some r) =
      (true, { b.setTimer r (t, sched) with timers := b.timers ++ [r] }) ∧
    t.scheduler = true ∧
    let rest := (b.dev.scheduler.cancel (b.timer r).scheduledEventId).2
    (¬ (b.timer r).Waiting → sched = rest) ∧
    ((b.timer r).Waiting → t.scheduledEventId = b.dev.scheduler.nextId ∧
      sched = (rest.schedule (some (.inl r)) cycle "Timer Compare Match").2) := by
  let t := (b.timer r).attachClock b.clock
  obtain ⟨cycle, id, hattach⟩ := t.attachScheduler_spec (.inl r) b.clock b.dev.scheduler
  have hbus : b.attachTimer (some r) =
      (true, { b.setTimer r (t.attachScheduler (.inl r) b.clock b.dev.scheduler) with
        timers := b.timers ++ [r] }) := if_neg hr
  rw [hbus, hattach]
  by_cases hw : t.running ∧ t.counter < t.compare
  · rw [if_pos hw]
    exact ⟨_, _, cycle, rfl, rfl, fun hnot => absurd hw hnot, fun _ => ⟨rfl, rfl⟩⟩
  · rw [if_neg hw]
    exact ⟨_, _, cycle, rfl, rfl, fun _ => rfl, fun hw' => absurd hw' hw⟩

omit [DecidableEq D] in
theorem released_release (b : PeripheralBus T D R H E) (r : T) :
    Released ((b.release r).timer r) := by
  have hclock (t : Timer) (sched : EventScheduler (T ⊕ E)) :
      (t.cancelScheduledEvent sched).1.clock = t.clock := by
    rw [Timer.cancelScheduledEvent]
    split_ifs <;> rfl
  rw [release, setTimer]
  simp only [Function.update_self]
  exact ⟨hclock _ _, rfl⟩

omit [DecidableEq D] in
theorem timer_release (h : u ≠ r) : (b.release r).timer u = b.timer u :=
  Function.update_of_ne h _ _

omit [DecidableEq D] in
theorem scheduler_release (h : (b.timer r).scheduler = true) :
    (b.release r).dev.scheduler = (b.dev.scheduler.cancel (b.timer r).scheduledEventId).2 :=
  (Timer.cancelScheduledEvent_attached (t := (b.timer r).detachClock) b.dev.scheduler h).1

/-! ### One operation -/

omit [DecidableEq D] in
theorem Attached.attachTimer (h : b.Attached) (hr : r ∉ b.timers) :
    (b.attachTimer (some r)).2.Attached := by
  obtain ⟨t, sched, -, hattach, ht, -⟩ := attachTimer_spec b hr
  rw [hattach]
  refine ⟨?_, h.dmas, ?_, ?_, h.dma⟩
  · exact h.timers.append (List.nodup_singleton r) (by simpa using hr)
  · intro u hu
    have hu : u ∉ b.timers ∧ u ≠ r := by simpa using hu
    show Released (Function.update b.timer r t u)
    rw [Function.update_of_ne hu.2]
    exact h.timer u hu.1
  · intro u hu
    show (Function.update b.timer r t u).scheduler = true
    by_cases hur : u = r
    · rw [hur, Function.update_self]
      exact ht
    · rw [Function.update_of_ne hur]
      have hu : u ∈ b.timers ∨ u = r := by simpa using hu
      exact h.scheduler u (hu.resolve_right hur)

omit [DecidableEq D] in
theorem Attached.detachTimer (h : b.Attached) (hr : r ∈ b.timers) :
    (b.detachTimer (some r)).2.Attached := by
  rw [PeripheralBus.detachTimer, if_pos hr]
  refine ⟨h.timers.erase r, h.dmas, ?_, ?_, h.dma⟩
  · intro u hu
    by_cases hur : u = r
    · rw [hur]
      exact released_release b r
    · rw [timer_release hur]
      exact h.timer u fun hmem => hu ((List.mem_erase_of_ne hur).2 hmem)
  · intro u hu
    obtain ⟨hur, hu⟩ := h.timers.mem_erase_iff.1 hu
    show ((b.release r).timer u).scheduler = true
    rw [timer_release hur]
    exact h.scheduler u hu

omit [DecidableEq D] in
theorem Tracked.attachTimer (h : b.Tracked) (hr : r ∉ b.timers)
    (hfresh : (b.timer r).Waiting →
      b.dev.scheduler.nextId ≠ 0 ∧ b.dev.scheduler.nextId ∉ b.dev.scheduler.ids) :
    (b.attachTimer (some r)).2.Tracked := by
  obtain ⟨t, sched, cycle, hattach, -, hidle, hwaiting⟩ := attachTimer_spec b hr
  rw [hattach]
  -- the events that are left are those of other timers
  let rest := (b.dev.scheduler.cancel (b.timer r).scheduledEventId).2
  have hsub : ∀ ev ∈ rest.events, ev ∈ b.dev.scheduler.events :=
    fun ev hev => b.dev.scheduler.mem_of_mem_cancel hev
  have hnodup : rest.ids.Nodup := b.dev.scheduler.nodup_cancel h.ids _
  have hothers : ∀ ev ∈ rest.events, ∀ u, ev.callback = some (.inl u) →
      u ∈ b.timers ++ [r] ∧ ev.id ≠ 0 ∧
        ev.id = (Function.update b.timer r t u).scheduledEventId := by
    intro ev hev u hown
    obtain ⟨hu, hid⟩ := h.known ev (hsub ev hev) u hown
    have hur : u ≠ r := fun hur => hr (hur ▸ hu)
    rw [Function.update_of_ne hur]
    exact ⟨List.mem_append_left _ hu, hid⟩
  by_cases hw : (b.timer r).Waiting
  · obtain ⟨hid, rfl⟩ := hwaiting hw
    obtain ⟨hnonzero, hnew⟩ := hfresh hw
    have hnext : rest.nextId = b.dev.scheduler.nextId := b.dev.scheduler.cancel_nextId _
    refine ⟨?_, ?_⟩
    · have hleft : b.dev.scheduler.nextId ∉ rest.ids := by
        intro hmem
        obtain ⟨ev, hev, heid⟩ := List.mem_map.1 hmem
        exact hnew (List.mem_map.2 ⟨ev, hsub ev hev, heid⟩)
      show ((rest.events ++ [_]).map Event.id).Nodup
      rw [List.map_append]
      exact hnodup.append (List.nodup_singleton _) (by simpa using hleft)
    · intro ev hev u hown
      rcases List.mem_append.1 hev with hev | hev
      · exact hothers ev hev u hown
      · -- the new event
        obtain rfl := List.mem_singleton.1 hev
        obtain rfl : r = u := Sum.inl.inj (Option.some.inj hown)
        show r ∈ b.timers ++ [r] ∧ rest.nextId ≠ 0 ∧
          rest.nextId = (Function.update b.timer r t r).scheduledEventId
        rw [Function.update_self, hid, hnext]
        exact ⟨List.mem_append_right _ (List.mem_singleton_self r), hnonzero, rfl⟩
  · obtain rfl := hidle hw
    exact ⟨hnodup, hothers⟩

omit [DecidableEq D] in
theorem Tracked.detachTimer (h : b.Tracked) (hattached : b.Attached) (hr : r ∈ b.timers) :
    (b.detachTimer (some r)).2.Tracked := by
  rw [PeripheralBus.detachTimer, if_pos hr]
  have hsched : (b.release r).dev.scheduler = _ := scheduler_release (hattached.scheduler r hr)
  refine ⟨?_, ?_⟩
  · show (b.release r).dev.scheduler.ids.Nodup
    rw [hsched]
    exact b.dev.scheduler.nodup_cancel h.ids _
  · intro ev hev u hown
    replace hev : ev ∈ (b.release r).dev.scheduler.events := hev
    rw [hsched] at hev
    obtain ⟨hu, hnonzero, hid⟩ := h.known ev (b.dev.scheduler.mem_of_mem_cancel hev) u hown
    -- the event of the timer was the one that has been cancelled
    have hur : u ≠ r := by
      rintro rfl
      rw [hid] at hnonzero
      exact ((b.dev.scheduler.mem_cancel_iff h.ids hnonzero).1 hev).2 hid
    show u ∈ b.timers.erase r ∧ ev.id ≠ 0 ∧ ev.id = ((b.release r).timer u).scheduledEventId
    rw [timer_release hur]
    exact ⟨(List.mem_erase_of_ne hur).2 hu, hnonzero, hid⟩

omit [DecidableEq T] [DecidableEq D] in
theorem Tracked.noDetachedEvents (h : b.Tracked) : b.NoDetachedEvents :=
  fun ev hev r hown => (h.known ev hev r hown).1

omit [DecidableEq T] in
theorem attachDMA_spec (b : PeripheralBus T D R H E) (hd : d ∉ b.dmas) :
    b.attachDMA (some d) = (true, { b with
      dma := Function.update b.dma d (b.attached (b.dma d))
      dmas := b.dmas ++ [d] }) := by
  rw [attachDMA, DmaBus.attachDMA, if_neg hd]

omit [DecidableEq T] in
theorem Attached.attachDMA (h : b.Attached) (hd : d ∉ b.dmas) :
    (b.attachDMA (some d)).2.Attached := by
  rw [attachDMA_spec b hd]
  refine ⟨h.timers, ?_, h.timer, h.scheduler, ?_⟩
  · exact h.dmas.append (List.nodup_singleton d) (by simpa using hd)
  · intro e
    show (Function.update b.dma d (b.attached (b.dma d)) e).scheduler = true ↔ e ∈ b.dmas ++ [d]
    by_cases hed : e = d
    · rw [hed, Function.update_self]
      exact iff_of_true rfl (List.mem_append_right _ (List.mem_singleton_self d))
    · rw [Function.update_of_ne hed, h.dma]
      simp [hed]

omit [DecidableEq T] in
theorem Attached.detachDMA (h : b.Attached) (hd : d ∈ b.dmas) :
    (b.detachDMA (some d)).2.Attached := by
  rw [PeripheralBus.detachDMA, if_pos hd]
  refine ⟨h.timers, h.dmas.erase d, h.timer, h.scheduler, ?_⟩
  intro e
  show (Function.update b.dma d (b.dma d).detachScheduler e).scheduler = true ↔ e ∈ b.dmas.erase d
  by_cases hed : e = d
  · rw [hed, Function.update_self]
    exact iff_of_false Bool.false_ne_true h.dmas.not_mem_erase
  · rw [Function.update_of_ne hed, h.dma, List.mem_erase_of_ne hed]

/-- An operation fails and does nothing, or it attaches or detaches. -/
theorem perform_cases (b : PeripheralBus T D R H E) (op : Op T D) :
    b.perform op = (false, b) ∨
      (∃ r, op = .attachTimer (some r) ∧ r ∉ b.timers) ∨
      (∃ d, op = .attachDMA (some d) ∧ d ∉ b.dmas) ∨
      (∃ r, op = .detachTimer (some r) ∧ r ∈ b.timers) ∨
      ∃ d, op = .detachDMA (some d) ∧ d ∈ b.dmas := by
  cases op with
  | attachTimer timer =>
    cases timer with
    | none => exact .inl rfl
    | some r =>
      by_cases hr : r ∈ b.timers
      · exact .inl (if_pos hr)
      · exact .inr (.inl ⟨r, rfl, hr⟩)
  | attachDMA dma =>
    cases dma with
    | none => exact .inl rfl
    | some d =>
      by_cases hd : d ∈ b.dmas
      · refine .inl ?_
        rw [perform, attachDMA, DmaBus.attachDMA, if_pos hd]
      · exact .inr (.inr (.inl ⟨d, rfl, hd⟩))
  | detachTimer timer =>
    cases timer with
    | none => exact .inl rfl
    | some r =>
      by_cases hr : r ∈ b.timers
      · exact .inr (.inr (.inr (.inl ⟨r, rfl, hr⟩)))
      · exact .inl (if_neg hr)
  | detachDMA dma =>
    cases dma with
    | none => exact .inl rfl
    | some d =>
      by_cases hd : d ∈ b.dmas
      · exact .inr (.inr (.inr (.inr ⟨d, rfl, hd⟩)))
      · exact .inl (if_neg hd)

theorem Attached.perform (h : b.Attached) (op : Op T D) : (b.perform op).2.Attached := by
  rcases b.perform_cases op with hfails | ⟨r, rfl, hr⟩ | ⟨d, rfl, hd⟩ | ⟨r, rfl, hr⟩ | ⟨d, rfl, hd⟩
  · rw [hfails]
    exact h
  · exact h.attachTimer hr
  · exact h.attachDMA hd
  · exact h.detachTimer hr
  · exact h.detachDMA hd

theorem Tracked.perform (h : b.Tracked) (hattached : b.Attached) {op : Op T D}
    (hfresh : b.FreshId op) : (b.perform op).2.Tracked := by
  rcases b.perform_cases op with hfails | ⟨r, rfl, hr⟩ | ⟨d, rfl, hd⟩ | ⟨r, rfl, hr⟩ | ⟨d, rfl, hd⟩
  · rw [hfails]
    exact h
  · exact h.attachTimer hr (hfresh hr)
  · rw [PeripheralBus.perform, attachDMA_spec b hd]
    exact ⟨h.ids, h.known⟩
  · exact h.detachTimer hattached hr
  · rw [PeripheralBus.perform, detachDMA, if_pos hd]
    exact ⟨h.ids, h.known⟩

/-- **Step lemma.**  A successful detach leaves nothing. -/
theorem Attached.detaches (h : b.Attached) (htracked : b.Tracked) {op : Op T D}
    (hfresh : b.FreshId op) : b.Detaches op := by
  have h' := h.perform op
  have hevents := (htracked.perform h hfresh).noDetachedEvents
  intro hok
  rcases b.perform_cases op with hfails | ⟨r, rfl, hr⟩ | ⟨d, rfl, hd⟩ | ⟨r, rfl, hr⟩ | ⟨d, rfl, hd⟩
  · rw [hfails] at hok
    exact absurd hok Bool.false_ne_true
  · exact trivial
  · exact trivial
  · have hgone : r ∉ (b.perform (.detachTimer (some r))).2.timers := by
      rw [PeripheralBus.perform, PeripheralBus.detachTimer, if_pos hr]
      exact h.timers.not_mem_erase
    exact ⟨h'.timer r hgone, hevents⟩
  · have hgone : d ∉ (b.perform (.detachDMA (some d))).2.dmas := by
      rw [PeripheralBus.perform, PeripheralBus.detachDMA, if_pos hd]
      exact h.dmas.not_mem_erase
    exact ⟨Bool.eq_false_iff.2 (mt (h'.dma d).1 hgone), hevents⟩

/-! ### The destructor -/

omit [DecidableEq D] in
theorem dma_foldl_release (b : PeripheralBus T D R H E) (rs : List T) :
    (rs.foldl release b).dma = b.dma := by
  induction rs generalizing b with
  | nil => rfl
  | cons u us ih => exact ih (b.release u)

omit [DecidableEq D] in
/-- **Loop lemma.**  The timers of the list are released, and no other one is attached. -/
theorem released_foldl_release {rs : List T} (h : r ∈ rs ∨ Released (b.timer r)) :
    Released ((rs.foldl release b).timer r) := by
  induction rs generalizing b with
  | nil => exact h.resolve_left List.not_mem_nil
  | cons u us ih =>
    refine ih (b := b.release u) ?_
    -- a timer that was released stays so while others are
    by_cases hru : r = u
    · rw [hru]
      exact .inr (released_release b u)
    · rw [timer_release hru]
      exact h.imp_left fun hr => (List.mem_cons.1 hr).resolve_left hru

omit [DecidableEq D] in
theorem noReferences_destroy_iff (h : b.Attached) : b.destroy.NoReferences ↔ b.dmas = [] := by
  have hdma : b.destroy.dma = b.dma := dma_foldl_release b b.timers
  constructor
  · intro hnone
    -- the destructor does not reach the controllers
    rw [List.eq_nil_iff_forall_not_mem]
    intro d hd
    have hd' : (b.dma d).scheduler = false := hdma ▸ hnone.dma d
    exact Bool.false_ne_true (hd'.symm.trans ((h.dma d).2 hd))
  · intro hnil
    refine ⟨?_, ?_⟩
    · intro r
      have hr : r ∈ b.timers ∨ Released (b.timer r) := or_iff_not_imp_left.2 (h.timer r)
      exact released_foldl_release hr
    · intro d
      rw [hdma, Bool.eq_false_iff, Ne, h.dma, hnil]
      exact List.not_mem_nil

/-- **Detaching and destruction.**  Every successful detach leaves nothing, and the destructor
leaves no references iff no DMA controller is attached. -/
theorem noReferences_iff {b₀ b : PeripheralBus T D R H E} {ops : List (Op T D)}
    (h : b₀.Unattached) (hrun : (lts T D R H E).Run b₀ ops b)
    (hfresh : (lts T D R H E).Allowed FreshId b₀ ops) :
    ((lts T D R H E).Allowed Detaches b₀ ops ∧ b.destroy.NoReferences) ↔ b.dmas = [] := by
  have hinv {pre : List (Op T D)} {c : PeripheralBus T D R H E} (hpre : pre <+: ops)
      (hrun : (lts T D R H E).Run b₀ pre c) : c.Attached ∧ c.Tracked := by
    refine LTS.invariant_along (I := fun c => c.Attached ∧ c.Tracked)
      ⟨h.attached, h.tracked⟩ ?_ hpre hrun
    rintro ks c op - hks hrun ⟨hattached, htracked⟩ rfl
    exact ⟨hattached.perform op, htracked.perform hattached (hfresh ks op c hks hrun)⟩
  have hdetaches : (lts T D R H E).Allowed Detaches b₀ ops := by
    intro pre op c hpre hrun
    obtain ⟨hattached, htracked⟩ := hinv ((List.prefix_append pre [op]).trans hpre) hrun
    exact hattached.detaches htracked (hfresh pre op c hpre hrun)
  rw [← noReferences_destroy_iff (hinv (List.prefix_refl ops) hrun).1]
  exact and_iff_right hdetaches

/-! ### Fresh ids -/

/-- The ids that the scheduler has handed out, at most `n`, are below the next one. -/
structure Numbered (b : PeripheralBus T D R H E) (n : ℕ) : Prop where
  pos : 0 < b.dev.scheduler.nextId.toNat
  nextId : b.dev.scheduler.nextId.toNat ≤ n + 1
  ids : ∀ id ∈ b.dev.scheduler.ids, id.toNat < b.dev.scheduler.nextId.toNat

omit [DecidableEq T] [DecidableEq D] in
theorem Numbered.mono {n m : ℕ} (h : b.Numbered n) (hnm : n ≤ m) : b.Numbered m :=
  ⟨h.pos, h.nextId.trans (Nat.succ_le_succ hnm), h.ids⟩

omit [DecidableEq D] in
theorem Numbered.attachTimer {n : ℕ} (h : b.Numbered n) (hn : n + 2 < 2 ^ 64) (hr : r ∉ b.timers) :
    (b.attachTimer (some r)).2.Numbered (n + 1) := by
  obtain ⟨t, sched, cycle, hattach, -, hidle, hwaiting⟩ := attachTimer_spec b hr
  rw [hattach]
  let rest := (b.dev.scheduler.cancel (b.timer r).scheduledEventId).2
  have hnext : rest.nextId = b.dev.scheduler.nextId := b.dev.scheduler.cancel_nextId _
  have hids : ∀ id ∈ rest.ids, id.toNat < b.dev.scheduler.nextId.toNat := by
    intro id hid
    obtain ⟨ev, hev, rfl⟩ := List.mem_map.1 hid
    exact h.ids ev.id (List.mem_map.2 ⟨ev, b.dev.scheduler.mem_of_mem_cancel hev, rfl⟩)
  have hpos := h.pos
  have hle := h.nextId
  -- an id is given away only if the timer waits for a match
  by_cases hw : (b.timer r).Waiting
  · obtain ⟨-, rfl⟩ := hwaiting hw
    have hsucc : (rest.nextId + 1).toNat = b.dev.scheduler.nextId.toNat + 1 := by
      rw [hnext, UInt64.toNat_add]
      exact Nat.mod_eq_of_lt (by simp; omega)
    refine ⟨?_, ?_, ?_⟩
    · show 0 < (rest.nextId + 1).toNat
      omega
    · show (rest.nextId + 1).toNat ≤ _
      omega
    · intro id hid
      show id.toNat < (rest.nextId + 1).toNat
      have hid : id ∈ (rest.events ++ [_]).map Event.id := hid
      rw [List.map_append, List.mem_append] at hid
      rcases hid with hid | hid
      · have hlt := hids id hid
        omega
      · obtain rfl : id = rest.nextId := List.mem_singleton.1 hid
        rw [hsucc, hnext]
        omega
  · obtain rfl := hidle hw
    refine ⟨?_, ?_, ?_⟩
    · show 0 < rest.nextId.toNat
      rwa [hnext]
    · show rest.nextId.toNat ≤ _
      rw [hnext]
      omega
    · show ∀ id ∈ rest.ids, id.toNat < rest.nextId.toNat
      rwa [hnext]

omit [DecidableEq D] in
theorem Numbered.detachTimer {n : ℕ} (h : b.Numbered n) (hattached : b.Attached)
    (hr : r ∈ b.timers) : (b.detachTimer (some r)).2.Numbered n := by
  rw [PeripheralBus.detachTimer, if_pos hr]
  have hsched : (b.release r).dev.scheduler = _ := scheduler_release (hattached.scheduler r hr)
  have hnext : (b.release r).dev.scheduler.nextId = b.dev.scheduler.nextId := by
    rw [hsched, EventScheduler.cancel_nextId]
  refine ⟨hnext ▸ h.pos, hnext ▸ h.nextId, ?_⟩
  show ∀ id ∈ (b.release r).dev.scheduler.ids, id.toNat < (b.release r).dev.scheduler.nextId.toNat
  rw [hnext, hsched]
  intro id hid
  obtain ⟨ev, hev, rfl⟩ := List.mem_map.1 hid
  exact h.ids ev.id (List.mem_map.2 ⟨ev, b.dev.scheduler.mem_of_mem_cancel hev, rfl⟩)

theorem Numbered.perform {n : ℕ} (h : b.Numbered n) (hattached : b.Attached) (hn : n + 2 < 2 ^ 64)
    (op : Op T D) : (b.perform op).2.Numbered (n + 1) := by
  have hmono : b.Numbered (n + 1) := h.mono (Nat.le_succ n)
  rcases b.perform_cases op with hfails | ⟨r, rfl, hr⟩ | ⟨d, rfl, hd⟩ | ⟨r, rfl, hr⟩ | ⟨d, rfl, hd⟩
  · rw [hfails]
    exact hmono
  · exact h.attachTimer hn hr
  · rw [PeripheralBus.perform, attachDMA_spec b hd]
    exact ⟨hmono.pos, hmono.nextId, hmono.ids⟩
  · exact hmono.detachTimer hattached hr
  · rw [PeripheralBus.perform, detachDMA, if_pos hd]
    exact ⟨hmono.pos, hmono.nextId, hmono.ids⟩

/-- A new scheduler has ids for `2 ^ 64 - 2` operations. -/
theorem allowed_freshId {b₀ : PeripheralBus T D R H E} {ops : List (Op T D)} (h : b₀.Unattached)
    (hnew : b₀.dev.scheduler = .init) (hlength : ops.length + 1 < 2 ^ 64) :
    (lts T D R H E).Allowed FreshId b₀ ops := by
  intro pre op c hpre hrun
  have hlen : pre.length + 1 ≤ ops.length := by simpa using hpre.length_le
  have hinit : b₀.Numbered 0 := by
    refine ⟨?_, ?_, ?_⟩
    · rw [hnew]
      exact Nat.one_pos
    · rw [hnew]
      exact le_rfl
    · rw [hnew]
      exact fun id hid => absurd hid List.not_mem_nil
  have hrun : pre.length + 1 < 2 ^ 64 → c.Attached ∧ c.Numbered pre.length := by
    -- each operation gives away one id at most, so the ids are below the length of the run
    refine hrun.history
      (I := fun ks c => ks.length + 1 < 2 ^ 64 → c.Attached ∧ c.Numbered ks.length)
      (fun _ => ⟨h.attached, hinit⟩) ?_
    rintro ks c op - ih rfl hks
    rw [List.length_append, List.length_singleton] at hks ⊢
    obtain ⟨hattached, hnumbered⟩ := ih (by omega)
    exact ⟨hattached.perform op, hnumbered.perform hattached hks op⟩
  obtain ⟨-, hpos, -, hids⟩ := hrun (by omega)
  cases op with
  | attachTimer timer =>
    cases timer with
    | none => exact trivial
    | some r =>
      intro _ _
      refine ⟨?_, fun hmem => (hids _ hmem).false⟩
      intro hzero
      rw [hzero] at hpos
      exact hpos.false
  | attachDMA _ | detachTimer _ | detachDMA _ => exact trivial

/-- A new bus; the timer waits for its match. -/
def newBus : PeripheralBus Unit Unit Empty Unit Empty where
  clock := ⟨0⟩
  dev := { DMAController.sixBytes with scheduler := .init }
  memory := true
  mmioBus := true
  interruptController := true
  uart := true
  dmas := []
  dma := fun _ => .new true true true true
  timers := []
  timer := fun _ => { Timer.new.enabled with compareRegister := .new 5 }

theorem unattached_newBus : newBus.Unattached :=
  ⟨rfl, rfl, ⟨fun _ => ⟨rfl, rfl⟩, fun _ => rfl⟩, List.nodup_nil,
    fun _ hev => absurd hev List.not_mem_nil⟩

/-- The bus after both have been attached and the DMA controller has been detached. -/
def timerLeft : PeripheralBus Unit Unit Empty Unit Empty :=
  (((newBus.attachTimer (some ())).2.attachDMA (some ())).2.detachDMA (some ())).2

/-- The timer is left to the destructor. -/
theorem noReferences_timerLeft : timerLeft.timers = [()] ∧ timerLeft.destroy.NoReferences := by
  let ops : List (Op Unit Unit) :=
    [.attachTimer (some ()), .attachDMA (some ()), .detachDMA (some ())]
  have hrun : (lts Unit Unit Empty Unit Empty).Run newBus ops timerLeft :=
    .cons rfl (.cons rfl (.cons rfl (.nil _)))
  have hfresh : (lts Unit Unit Empty Unit Empty).Allowed FreshId newBus ops :=
    allowed_freshId unattached_newBus rfl (by decide)
  exact ⟨rfl, ((noReferences_iff unattached_newBus hrun hfresh).2 rfl).2⟩

/-- A DMA controller that is attached keeps a pointer to the scheduler of a bus that is gone. -/
theorem not_noReferences_attached :
    newBus.Unattached ∧ ((newBus.attachDMA (some ())).2.destroy.dma ()).scheduler = true ∧
      ¬ (newBus.attachDMA (some ())).2.destroy.NoReferences := by
  refine ⟨unattached_newBus, rfl, ?_⟩
  intro h
  exact Bool.false_ne_true (h.dma ()).symm

end PeripheralBus

end System

end EFS
