import EFS.System.EventRuns
import EFS.System.SimulationClock

/-!
# Events are on time

`CPU::step()` advances the clock by one, lets the peripherals tick, and then executes the ready
events of the new cycle.  The bus is `Timed` here: its clock and its scheduler, whose events are
scheduled, cancelled and cleared at any time, also by peripherals that tick and by callbacks.

* `horizon` : the first cycle whose events are still to be executed.
* `dues` : the record of the events with the cycles in which they are due, each the cycle asked
  for, or the horizon, if that was already later.
* `Punctual` : what is pending, waiting or executed is so as its due cycle says.
* `punctual_of_run` : events are executed in the cycles in which they are due, and none is missed.
-/

namespace EFS

namespace System

variable {Cb : Type}

/-- The clock and the event scheduler of a bus. -/
structure Timed (Cb : Type) where
  log : Recorded Cb
  clock : SimulationClock
  /-- The clock has advanced and the events of its cycle have not been taken yet. -/
  ticked : Bool
  /-- The events scheduled, with the cycles in which they are due. -/
  dues : List (EventId × UInt64)

/-- What is done with the bus. -/
inductive BusCall (Cb : Type) where
  | schedule (callback : Option Cb) (cycle : UInt64) (description : String)
  | cancel (eventId : EventId)
  | clear
  /-- `tickTimers()` advances the clock. -/
  | tick
  /-- `executeReadyEvents(clock().cycles())`, the second part of a step. -/
  | executeReadyEvents
  /-- `SystemBus::reset()`. -/
  | reset

namespace Timed

variable (s : Timed Cb)

/-- The cycle of the next batch. -/
def horizon : UInt64 := if s.ticked then s.clock.cycles else s.clock.cycles + 1

/-- When an event scheduled now is due. -/
def due (cycle : UInt64) : UInt64 := if cycle < s.horizon then s.horizon else cycle

/-- `schedule()`; when the event will be due is recorded. -/
def schedule (callback : Option Cb) (cycle : UInt64) (description : String) : Timed Cb :=
  { s with
    log := s.log.schedule callback cycle description
    dues := if callback.isSome then (s.log.sched.nextId, s.due cycle) :: s.dues else s.dues }

/-- The batch of the present cycle, which the next tick must precede. -/
def executeReadyEvents : Outcome (Timed Cb) (Batch Cb) :=
  (s.log.executeReadyEvents s.clock.cycles).map fun log => { s with log, ticked := false }

end Timed

/-- The bus as a re-entrant component. -/
def timedComponent (Cb : Type) : Reentrant (Timed Cb) (BusCall Cb) (Batch Cb) where
  call s
    | .schedule callback cycle description => .returned (s.schedule callback cycle description)
    | .cancel eventId => .returned { s with log := s.log.cancel eventId }
    | .clear => .returned { s with log := s.log.clear }
    | .tick => .returned { s with clock := s.clock.tick 1, ticked := true }
    | .executeReadyEvents => s.executeReadyEvents
    | .reset => .returned { s with clock := .reset, log := s.log.clear }
  resume s b :=
    (s.log.startNext b.currentCycle (b.executed + 1) b.rest).map fun log => { s with log }
  unwind s b := { s with log := s.log.drop b }

/-- Neither the ids nor the cycles wrap around, and the two parts of a step take turns. -/
def InTurn (s : Timed Cb) : BusCall Cb → Prop
  | .schedule _ _ _ => s.log.issued.length + 1 < 2 ^ 64
  | .tick => s.ticked = false ∧ s.clock.cycles.toNat + 2 < 2 ^ 64
  | .executeReadyEvents => s.ticked = true
  | .reset => s.ticked = false
  | _ => True

instance (s : Timed Cb) : (o : BusCall Cb) → Decidable (InTurn s o)
  | .schedule _ _ _ => inferInstanceAs (Decidable (s.log.issued.length + 1 < 2 ^ 64))
  | .tick => inferInstanceAs (Decidable (s.ticked = false ∧ s.clock.cycles.toNat + 2 < 2 ^ 64))
  | .executeReadyEvents => inferInstanceAs (Decidable (s.ticked = true))
  | .reset => inferInstanceAs (Decidable (s.ticked = false))
  | .cancel _ | .clear => isTrue trivial

/-- Only steps and resets move the clock, and callbacks do not call these. -/
def BusCall.OfStep : BusCall Cb → Prop
  | .tick | .executeReadyEvents | .reset => True
  | _ => False

/-- The bus in a simulation whose callbacks do not throw. -/
def timedMachine (Cb : Type) :
    LTS (Timed Cb × List (Batch Cb)) (Reentrant.Label (BusCall Cb) (Batch Cb)) :=
  ((timedComponent Cb).lts InTurn).restrict fun c l =>
    l ≠ .throw ∧ ∀ o x, l = .call o x → o.OfStep → c.2 = []

/-- A new scheduler and a new clock, with nothing running. -/
def timedStart : Timed Cb × List (Batch Cb) := (⟨eventStart.1, ⟨0⟩, false, []⟩, [])

/-! ### Due cycles -/

namespace Timed

variable {s t : Timed Cb} {cycle : UInt64}

theorem horizon_le_due : s.horizon ≤ s.due cycle := by
  unfold due
  split_ifs with h
  · exact UInt64.le_refl _
  · exact UInt64.not_lt.1 h

theorem due_congr (h : s.horizon = t.horizon) : s.due cycle = t.due cycle := by
  rw [due, due, h]

theorem due_of_le (hticked : s.ticked = true) (h : cycle ≤ s.clock.cycles) :
    s.due cycle = s.clock.cycles := by
  have hhorizon : s.horizon = s.clock.cycles := if_pos hticked
  rw [due, hhorizon]
  split_ifs with hlt
  · rfl
  · exact UInt64.le_antisymm h (UInt64.not_lt.1 hlt)

theorem due_of_not_le (hticked : s.ticked = true) (hclock : s.clock.cycles.toNat + 1 < 2 ^ 64)
    (h : ¬ cycle ≤ s.clock.cycles) (log : Recorded Cb) :
    Timed.due { s with log, ticked := false } cycle = s.due cycle := by
  have hlt : s.clock.cycles < cycle := UInt64.not_le.1 h
  have hnext : ¬ cycle < s.clock.cycles + 1 := by
    intro hcycle
    have hcycle : cycle.toNat < (s.clock.cycles + 1).toNat := hcycle
    have hlt : s.clock.cycles.toNat < cycle.toNat := hlt
    rw [UInt64.toNat_add, UInt64.toNat_one, Nat.mod_eq_of_lt hclock] at hcycle
    exact hlt.not_ge (Nat.le_of_lt_succ hcycle)
  have hhorizon : s.horizon = s.clock.cycles := if_pos hticked
  rw [due, due, hhorizon, if_neg (UInt64.lt_asymm hlt)]
  exact if_neg hnext

end Timed

/-! ### The invariant -/

/-- The events are where their due cycles say; `w` are those that wait in batches. -/
structure Punctual (s : Timed Cb) (w : List (Event Cb × UInt64)) : Prop where
  conserved : Conserved s.log w
  /-- Every event has a due cycle. -/
  ids_eq : s.dues.map Prod.fst = s.log.issued.map Prod.fst
  pending : ∀ ev ∈ s.log.sched.events, (ev.id, s.due ev.cycle) ∈ s.dues
  waiting : ∀ e ∈ w, (e.1.id, e.2) ∈ s.dues
  executed : ∀ e ∈ s.log.executed, e ∈ s.dues

namespace Punctual

variable {s : Timed Cb} {w : List (Event Cb × UInt64)}

theorem schedule (h : Punctual s w) {callback : Option Cb} {cycle : UInt64} {description : String}
    (hlimit : s.log.issued.length + 1 < 2 ^ 64) :
    Punctual (s.schedule callback cycle description) w := by
  have hconserved : Conserved (s.log.schedule callback cycle description) w :=
    h.conserved.schedule hlimit
  cases callback with
  | none => exact ⟨hconserved, h.ids_eq, h.pending, h.waiting, h.executed⟩
  | some f =>
    refine ⟨hconserved, congrArg (_ :: ·) h.ids_eq, ?_,
      fun e he => List.mem_cons_of_mem _ (h.waiting e he),
      fun e he => List.mem_cons_of_mem _ (h.executed e he)⟩
    intro ev hev
    rcases List.mem_append.1 hev with hev | hev
    · exact List.mem_cons_of_mem _ (h.pending ev hev)
    · obtain rfl := List.mem_singleton.1 hev
      exact List.mem_cons_self

theorem cancel (h : Punctual s w) (eventId : EventId) :
    Punctual { s with log := s.log.cancel eventId } w :=
  ⟨h.conserved.cancel eventId, h.ids_eq,
    fun ev hev => h.pending ev (s.log.sched.mem_of_mem_cancel hev), h.waiting, h.executed⟩

theorem clear (h : Punctual s w) (clock : SimulationClock) :
    Punctual { s with log := s.log.clear, clock } w :=
  ⟨h.conserved.clear, h.ids_eq, fun ev hev => (by cases hev), h.waiting, h.executed⟩

/-- The horizon stays where it is, so what is pending is due when it was. -/
theorem tick (h : Punctual s w) (hticked : s.ticked = false) :
    Punctual { s with clock := s.clock.tick 1, ticked := true } w := by
  refine ⟨h.conserved, h.ids_eq, fun ev hev => ?_, h.waiting, h.executed⟩
  have hhorizon : s.horizon = { s with clock := s.clock.tick 1, ticked := true }.horizon := by
    simp [Timed.horizon, hticked, SimulationClock.tick]
  rw [← Timed.due_congr hhorizon]
  exact h.pending ev hev

/-- The events that are taken are due now. -/
theorem takeReady (h : Punctual s w) (hticked : s.ticked = true)
    (hclock : s.clock.cycles.toNat + 1 < 2 ^ 64) :
    Punctual { s with
        log := { s.log with sched := (s.log.sched.takeReady s.clock.cycles).2 }
        ticked := false }
      ((s.log.sched.takeReady s.clock.cycles).1.map (·, s.clock.cycles) ++ w) := by
  refine ⟨h.conserved.takeReady _, h.ids_eq, ?_, ?_, h.executed⟩
  · intro ev hev
    obtain ⟨hev, hlater⟩ := s.log.sched.mem_takeReady_events.1 hev
    rw [Timed.due_of_not_le hticked hclock hlater]
    exact h.pending ev hev
  · intro e he
    rcases List.mem_append.1 he with he | he
    · obtain ⟨ev, hev, rfl⟩ := List.mem_map.1 he
      obtain ⟨hev, hready⟩ := s.log.sched.mem_takeReady.1 hev
      rw [← Timed.due_of_le hticked hready]
      exact h.pending ev hev
    · exact h.waiting e he

theorem startNext {batch : List (Event Cb)} {c : UInt64} {n : ℕ}
    (h : Punctual s (batch.map (·, c) ++ w)) :
    Punctual { s with log := (s.log.startNext c n batch).state }
        (System.waiting (s.log.startNext c n batch).frame?.toList ++ w) ∧
      ∀ b ∈ (s.log.startNext c n batch).frame?,
        b.currentCycle = c ∧ (b.event.id, b.currentCycle) ∈ s.dues := by
  have hconserved := h.conserved.startNext (n := n)
  cases batch with
  | nil => exact ⟨⟨hconserved, h.ids_eq, h.pending, h.waiting, h.executed⟩, nofun⟩
  | cons ev rest =>
    -- events with a callback are not skipped
    obtain ⟨f, hf⟩ : ∃ f, ev.callback = some f :=
      Option.ne_none_iff_exists'.1 (h.conserved.waiting_ok (ev, c) List.mem_cons_self).1
    have hstart : s.log.startNext c n (ev :: rest) = .entered
        { s.log with executed := (ev.id, c) :: s.log.executed } ⟨c, ev, rest, n⟩ := by
      simp only [Recorded.startNext, hf]
    have hdue : (ev.id, c) ∈ s.dues := h.waiting (ev, c) List.mem_cons_self
    rw [hstart] at hconserved ⊢
    refine ⟨⟨hconserved, h.ids_eq, h.pending, fun e he => h.waiting e ?_, fun e he => ?_⟩, ?_⟩
    · refine List.mem_cons_of_mem _ ?_
      simpa [System.waiting] using he
    · rcases List.mem_cons.1 he with rfl | he
      · exact hdue
      · exact h.executed e he
    · intro b hb
      obtain rfl := Option.some.inj hb
      exact ⟨rfl, hdue⟩

theorem executeReadyEvents (h : Punctual s w) (hticked : s.ticked = true)
    (hclock : s.clock.cycles.toNat + 1 < 2 ^ 64) :
    Punctual { s with log := (s.log.executeReadyEvents s.clock.cycles).state, ticked := false }
        (System.waiting (s.log.executeReadyEvents s.clock.cycles).frame?.toList ++ w) ∧
      ∀ b ∈ (s.log.executeReadyEvents s.clock.cycles).frame?,
        b.currentCycle = s.clock.cycles ∧ (b.event.id, b.currentCycle) ∈ s.dues := by
  unfold Recorded.executeReadyEvents
  split_ifs with hempty
  · refine ⟨⟨h.conserved.results _, h.ids_eq, fun ev hev => ?_, h.waiting, h.executed⟩, nofun⟩
    have hnil : s.log.sched.events = [] := List.isEmpty_iff.1 hempty
    exact absurd (hnil ▸ hev) List.not_mem_nil
  · exact (h.takeReady hticked hclock).startNext

end Punctual

/-- What holds between two calls. -/
structure OnTime (c : Timed Cb × List (Batch Cb)) : Prop where
  punctual : Punctual c.1 (waiting c.2)
  /-- The clock stands still while callbacks run. -/
  running : ∀ b ∈ c.2, b.currentCycle = c.1.clock.cycles ∧ (b.event.id, b.currentCycle) ∈ c.1.dues
  clock_lt : c.1.clock.cycles.toNat + 1 < 2 ^ 64
  dropped : c.1.log.dropped = []

theorem OnTime.start : OnTime (timedStart : Timed Cb × List (Batch Cb)) :=
  ⟨⟨conserved_of_reachable (.refl _), rfl, nofun, nofun, nofun⟩, nofun,
    (by decide : 0 + 1 < 2 ^ 64), rfl⟩

/-- **Step lemma.**  Every step keeps the events on time. -/
theorem OnTime.step {c d : Timed Cb × List (Batch Cb)} {l : Reentrant.Label (BusCall Cb) (Batch Cb)}
    (h : OnTime c) (hst : (timedMachine Cb).step c l d) : OnTime d := by
  obtain ⟨⟨hcalm, htop⟩, hst, hturn⟩ := hst
  cases hst with
  | call s bs o =>
    have ho := hturn _ _ rfl
    have htop : o.OfStep → bs = [] := htop _ _ rfl
    obtain ⟨hpunctual, hrunning, hclock, hdropped⟩ := h
    cases o with
    | schedule callback cycle description =>
      refine ⟨hpunctual.schedule ho, fun b hb => (hrunning b hb).imp_right fun hdue => ?_, hclock,
        hdropped⟩
      change _ ∈ if callback.isSome then _ else _
      split_ifs
      · exact List.mem_cons_of_mem _ hdue
      · exact hdue
    | cancel eventId => exact ⟨hpunctual.cancel eventId, hrunning, hclock, hdropped⟩
    | clear => exact ⟨hpunctual.clear s.clock, hrunning, hclock, hdropped⟩
    | tick =>
      -- a step of the CPU begins when no callback runs
      obtain rfl := htop trivial
      refine ⟨hpunctual.tick ho.1, nofun, ?_, hdropped⟩
      change (s.clock.cycles + 1).toNat + 1 < 2 ^ 64
      rw [UInt64.toNat_add, UInt64.toNat_one, Nat.mod_eq_of_lt hclock]
      exact ho.2
    | executeReadyEvents =>
      obtain rfl := htop trivial
      obtain ⟨hexecuted, hstarted⟩ := hpunctual.executeReadyEvents ho hclock
      have hcall : (timedComponent Cb).call s .executeReadyEvents =
        (s.log.executeReadyEvents s.clock.cycles).map fun log => { s with log, ticked := false } :=
        rfl
      rw [hcall, Outcome.state_map, Outcome.frame?_map]
      refine ⟨by rwa [waiting_append], fun b hb => hstarted b (by simpa using hb), hclock, ?_⟩
      exact (s.log.executeReadyEvents_record _).2.2.1.trans hdropped
    | reset =>
      obtain rfl := htop trivial
      exact ⟨hpunctual.clear .reset, nofun, (by decide : 0 + 1 < 2 ^ 64), hdropped⟩
  | ret s b bs =>
    obtain ⟨hpunctual, hrunning, hclock, hdropped⟩ := h
    obtain ⟨hresumed, hstarted⟩ := Punctual.startNext (n := b.executed + 1) hpunctual
    have hresume : (timedComponent Cb).resume s b =
      (s.log.startNext b.currentCycle (b.executed + 1) b.rest).map fun log => { s with log } := rfl
    rw [hresume, Outcome.state_map, Outcome.frame?_map]
    refine ⟨by rwa [waiting_append], fun b' hb' => ?_, hclock,
      (s.log.startNext_record ..).2.2.1.trans hdropped⟩
    -- the batch goes on with its next event, which is due in the same cycle
    rcases List.mem_append.1 hb' with hb' | hb'
    · obtain ⟨hcycle, hdue⟩ := hstarted b' (by simpa using hb')
      exact ⟨hcycle.trans (hrunning b List.mem_cons_self).1, hdue⟩
    · exact hrunning b' (List.mem_cons_of_mem _ hb')
  | throw s b bs => exact absurd rfl hcalm

/-- **Punctuality.**  Every event has one due cycle, in which it is executed, with the clock at that
cycle while its callback runs; and when no callback runs, no event is overdue: each is executed,
cancelled or cleared, or pending with a due cycle that is still to come. -/
theorem punctual_of_run {c : Timed Cb × List (Batch Cb)}
    (h : (timedMachine Cb).Reachable timedStart c) :
    (c.1.dues.map Prod.fst).Nodup ∧ (∀ e ∈ c.1.log.executed, e ∈ c.1.dues) ∧
    (∀ b ∈ c.2, (b.event.id, c.1.clock.cycles) ∈ c.1.dues) ∧
    (c.2 = [] → ∀ e ∈ c.1.dues, e ∈ c.1.log.executed ∨ e.1 ∈ c.1.log.cancelled ∨
      e.1 ∈ c.1.log.cleared ∨ e.1 ∈ c.1.log.sched.ids ∧ c.1.horizon ≤ e.2) := by
  obtain ⟨hpunctual, hrunning, -, hdropped⟩ :=
    h.invariant (I := OnTime) .start fun _ _ _ hc hst => hc.step hst
  have hnodup : (c.1.dues.map Prod.fst).Nodup := hpunctual.ids_eq ▸ hpunctual.conserved.nodup
  have hunique {e e' : EventId × UInt64} (he : e ∈ c.1.dues) (he' : e' ∈ c.1.dues)
      (hid : e.1 = e'.1) : e = e' := List.inj_on_of_nodup_map hnodup he he' hid
  refine ⟨hnodup, hpunctual.executed, fun b hb => ?_, fun hidle e he => ?_⟩
  · obtain ⟨hclock, hdue⟩ := hrunning b hb
    exact hclock ▸ hdue
  · have hplace := hpunctual.conserved.perm.mem_iff.1
      (hpunctual.ids_eq ▸ List.mem_map_of_mem (f := Prod.fst) he)
    rw [hidle, hdropped] at hplace
    simp only [List.mem_append] at hplace
    rcases hplace with hpending | hwaiting | hexecuted | hcancelled | hcleared | hdropped
    · refine .inr (.inr (.inr ⟨hpending, ?_⟩))
      obtain ⟨ev, hev, hid⟩ := List.mem_map.1 hpending
      rw [hunique he (hpunctual.pending ev hev) hid.symm]
      exact Timed.horizon_le_due
    · cases hwaiting
    · obtain ⟨e', he', hid⟩ := List.mem_map.1 hexecuted
      exact .inl (hunique (hpunctual.executed e' he') he hid ▸ he')
    · exact .inr (.inl hcancelled)
    · exact .inr (.inr (.inl hcleared))
    · cases hdropped

/-- An event asked for in the cycle that is over is executed in the next one, and so is another one
that its callback asks for in the one after that. -/
theorem punctual_of_run_late : ∃ c, (timedMachine Unit).Reachable timedStart c ∧
    c.1.log.issued = [(2, 0), (1, 0)] ∧ c.1.log.executed = [(2, 2), (1, 1)] ∧ c.1.horizon = 3 ∧
    ∀ e ∈ c.1.log.executed, e ∈ c.1.dues := by
  have hrun : ∃ c, (timedMachine Unit).Run timedStart
      [.call (.schedule (some ()) 0 "a") none, .call .tick none,
        .call .executeReadyEvents (some ⟨1, ⟨1, 0, some (), "a"⟩, [], 0⟩),
        .call (.schedule (some ()) 0 "b") none, .ret none, .call .tick none,
        .call .executeReadyEvents (some ⟨2, ⟨2, 0, some (), "b"⟩, [], 0⟩), .ret none] c ∧
      c.1.log.issued = [(2, 0), (1, 0)] ∧ c.1.log.executed = [(2, 2), (1, 1)] ∧
      c.1.horizon = 3 := by
    refine ⟨_, .cons ⟨⟨nofun, ?_⟩, Reentrant.lts_call (by decide)⟩
      (.cons ⟨⟨nofun, fun _ _ _ _ => rfl⟩, Reentrant.lts_call (by decide)⟩
      (.cons ⟨⟨nofun, fun _ _ _ _ => rfl⟩, Reentrant.lts_call rfl⟩
      (.cons ⟨⟨nofun, ?_⟩, Reentrant.lts_call (by decide)⟩
      (.cons ⟨⟨nofun, nofun⟩, Reentrant.lts_ret⟩
      (.cons ⟨⟨nofun, fun _ _ _ _ => rfl⟩, Reentrant.lts_call (by decide)⟩
      (.cons ⟨⟨nofun, fun _ _ _ _ => rfl⟩, Reentrant.lts_call rfl⟩
      (.single ⟨⟨nofun, nofun⟩, Reentrant.lts_ret⟩))))))), rfl, rfl, rfl⟩
    · rintro o x ⟨⟩ ⟨⟩
    · rintro o x ⟨⟩ ⟨⟩
  obtain ⟨c, hrun, hissued, hexecuted, hhorizon⟩ := hrun
  exact ⟨c, ⟨_, hrun⟩, hissued, hexecuted, hhorizon, (punctual_of_run ⟨_, hrun⟩).2.1⟩

end System

end EFS
