import EFS.Cpu.TimerEvents
import EFS.LTS.BusyPeriod
import EFS.System.TimerSignal

/-!
# Timers and their interrupt handlers

A CPU steps a bus with any number of timers, each with an interrupt line of its own, and one step
dispatches one interrupt.  Between the steps the timers are started, stopped and re-programmed, also
by the handlers.

Two matches of a timer before the dispatch are one interrupt.  That does not happen if a timer that
is started or re-programmed is always given at least as many cycles as there are timers: the CPU is
then a server with spaced requests (`Agenda`).

* `Going.agenda_step`, `Going.announce_call` : the requests of the timers in a step and in a call.
* `handled_of_run` : each match of a timer invokes its handler once, or is the one that waits.
* `response_of_run` : a match waits for its handler for fewer steps than there are timers.
-/

namespace EFS

namespace Cpu

open EFS.System EFS.Drivers EFS.Kernel

variable {T H : Type} [DecidableEq T]

/-- The handler that a step invokes, with its line. -/
def CPU.service (c : CPU T H) : Option (InterruptController.Service H) :=
  if c.power ≠ .on then none
  else
    match c.bus.tickTimers with
    | (_, some _) => none
    | (bus, none) =>
      match bus.executeReadyEvents bus.clock.cycles with
      | (_, some _) => none
      | (bus, none) => bus.interrupts.serve.frame?

theorem CPU.step_service (c : CPU T H) :
    c.step.2.2 = c.service.map InterruptController.Service.handler := by
  rw [CPU.step, CPU.service]
  split_ifs
  · rfl
  · rcases hticks : c.bus.tickTimers with ⟨bus, _ | e⟩
    · simp only [hticks]
      rcases hexecute : bus.executeReadyEvents bus.clock.cycles with ⟨bus', _ | e⟩
      · exact (congrArg Prod.snd bus'.interrupts.serve_eq_dispatch).symm
      · rfl
    · simp only [hticks]
      rfl

theorem CPU.step_eq_serve {c : CPU T H} {bus bus' : Board T H} (hpower : c.power = .on)
    (htick : c.bus.tickTimers = (bus, none))
    (hready : bus.executeReadyEvents bus.clock.cycles = (bus', none)) :
    c.step.2.1 = none ∧ c.service = bus'.interrupts.serve.frame? ∧
      c.step.1 = { c with
        cycleCount := c.cycleCount + 1
        bus := { bus' with interrupts := bus'.interrupts.serve.state } } := by
  have hdispatch : bus'.interrupts.serve.state = bus'.interrupts.dispatch.1 :=
    congrArg Prod.fst bus'.interrupts.serve_eq_dispatch
  have hservice : c.service = bus'.interrupts.serve.frame? := by
    rw [CPU.service, if_neg (not_not.2 hpower)]
    simp only [htick, hready]
  rw [CPU.step_eq hpower htick hready, hdispatch]
  exact ⟨rfl, hservice, rfl⟩

/-! ### Runs with interrupts -/

/-- What happens to a board whose timers interrupt. -/
inductive InterruptLabel (T H : Type) where
  /-- A step, and the handler that it invokes. -/
  | step (svc : Option (InterruptController.Service H))
  | call (r : T) (o : Timer.Op)

namespace InterruptLabel

/-- The handler of line `l` is invoked. -/
def serves (l : Fin maxInterrupts) : InterruptLabel T H → Bool
  | .step svc => svc.any fun s => s.line = l
  | .call _ _ => false

/-- The label is a cycle of the CPU. -/
def isStep : InterruptLabel T H → Bool
  | .step _ => true
  | .call _ _ => false

end InterruptLabel

/-- The call leaves the lines of the timers, and if it gives a timer another match, it gives it at
least as many cycles as there are timers, before the clock wraps. -/
structure CPU.Allows (c : CPU T H) (r : T) (o : Timer.Op) : Prop where
  attach : ∀ id, o ≠ .attachInterruptController id
  detach : o ≠ .detachInterruptController
  idsUnique : IdsUnique c (.timer r o)
  spaced : ∀ k ∈ ((c.perform (.timer r o)).bus.timer r).remaining,
    (c.bus.timer r).remaining = some k ∨
      c.bus.timers.length ≤ k ∧ c.bus.clock.cycles.toNat + k < 2 ^ 64

/-- The CPU, with calls of its timers between the steps. -/
def interruptLts (T H : Type) [DecidableEq T] : LTS (CPU T H) (InterruptLabel T H) where
  step c l c' :=
    match l with
    | .step svc => svc = c.service ∧ c' = c.step.1
    | .call r o => c.Allows r o ∧ c' = c.perform (.timer r o)

namespace CPU

variable (c : CPU T H) (line : T → Fin maxInterrupts)

/-- The CPU is on, its events are in sync, and only timers use the interrupt lines. -/
structure Going : Prop where
  power : c.power = .on
  synced : c.bus.Synced
  wired : c.bus.Wired line
  inTime : c.bus.InTime
  ready : ∀ l, c.bus.interrupts.Ready l → ∃ r ∈ c.bus.timers, line r = l

/-- The timers as clients of the interrupt controller. -/
def clients : Finset T := c.bus.timers.toFinset

/-- The timers that wait for service, with the cycles that are left until each one's match. -/
def agenda : Agenda T where
  waiting := c.clients.filter fun r => c.bus.interrupts.Ready (line r)
  due r := (c.bus.timer r).remaining

variable {c line} {r : T} {o : Timer.Op}

theorem mem_clients : r ∈ c.clients ↔ r ∈ c.bus.timers := List.mem_toFinset

theorem mem_waiting :
    r ∈ (c.agenda line).waiting ↔ r ∈ c.bus.timers ∧ c.bus.interrupts.Ready (line r) := by
  rw [agenda, Finset.mem_filter, mem_clients]

theorem Going.mem_raised (h : c.Going line) :
    r ∈ (c.agenda line).raised c.clients ↔ (c.bus.timer r).remaining = some 1 := by
  rw [Agenda.raised, Finset.mem_filter, mem_clients]
  refine and_iff_right_of_imp fun hone => ?_
  exact (h.synced.waiting r (Timer.remaining_eq_some.1 hone).1).1

theorem Going.mem_timers (h : c.Going line)
    (hr : r ∈ (c.agenda line).waiting ∪ (c.agenda line).raised c.clients) : r ∈ c.bus.timers := by
  rcases Finset.mem_union.1 hr with hr | hr
  · exact (mem_waiting.1 hr).1
  · exact (h.synced.waiting r (Timer.remaining_eq_some.1 (h.mem_raised.1 hr)).1).1

/-! ### One step -/

/-- In the step the timers `rs` match, which leads to `bus`, and then one interrupt is served. -/
structure Matched (c : CPU T H) (line : T → Fin maxInterrupts) (bus : Board T H) (rs : List T) :
    Prop where
  thrown : c.step.2.1 = none
  step : c.step.1 = { c with
    cycleCount := c.cycleCount + 1
    bus := { bus with interrupts := bus.interrupts.serve.state } }
  synced : bus.Synced
  signals : Board.Signals line c.bus.ticked rs bus
  nodup : rs.Nodup
  mem_iff : ∀ r, r ∈ rs ↔ (c.bus.timer r).remaining = some 1
  wired : bus.Wired line
  dispatched : bus.interrupts.Dispatched c.service bus.interrupts.serve.state

theorem Going.matched (h : c.Going line) : ∃ bus rs, c.Matched line bus rs := by
  have hticks := Board.tickTimers_eq h.synced.timers h.synced.onBus
  obtain ⟨bus, rs, hexecute, hsynced, hs, hnodup, hrs⟩ := h.synced.signals h.wired h.inTime
  obtain ⟨hthrown, hservice, hstep⟩ := step_eq_serve h.power hticks hexecute
  have hwired : bus.Wired line := by
    obtain ⟨v, hv, -⟩ := hs.interrupts
    refine h.wired.of_withPending hs.timers (fun r => (hs.line_eq r).trans ?_) ⟨v, hv⟩
    simp only [Board.ticked]
    split_ifs <;> rfl
  have hserved := InterruptController.dispatched_serve hwired.handlersRegistered
  exact ⟨bus, rs, hthrown, hstep, hsynced, hs, hnodup, hrs, hwired, hservice ▸ hserved⟩

variable {bus : Board T H} {rs : List T} {served : Option T}

/-- The lines that are ready when the step dispatches are those of the requests. -/
theorem Matched.ready_iff (hm : c.Matched line bus rs) (h : c.Going line) (l : Fin maxInterrupts) :
    bus.interrupts.Ready l ↔
      ∃ r ∈ (c.agenda line).waiting ∪ (c.agenda line).raised c.clients, line r = l := by
  obtain ⟨v, hv, hbits⟩ := hm.signals.interrupts
  have hv : bus.interrupts = c.bus.interrupts.withPending v := hv
  have hmem {r : T} (hr : r ∈ rs) : r ∈ c.bus.timers :=
    h.mem_timers (Finset.mem_union_right _ (h.mem_raised.2 ((hm.mem_iff r).1 hr)))
  have hready := h.wired.ready_withPending (P := (· ∈ rs)) (v := v) (fun l => (hbits l).trans
    (or_congr_right ⟨fun ⟨r, hr, hl⟩ => ⟨r, hmem hr, hl, hr⟩, fun ⟨r, _, hl, hr⟩ => ⟨r, hr, hl⟩⟩)) l
  rw [hv, hready]
  simp only [Finset.mem_union, mem_waiting, h.mem_raised, ← hm.mem_iff]
  constructor
  · rintro (hl | ⟨r, -, rfl, hr⟩)
    · obtain ⟨r, hr, rfl⟩ := h.ready l hl
      exact ⟨r, .inl ⟨hr, hl⟩, rfl⟩
    · exact ⟨r, .inr hr, rfl⟩
  · rintro ⟨r, ⟨-, hr⟩ | hr, rfl⟩
    · exact .inl hr
    · exact .inr ⟨r, hmem hr, rfl, hr⟩

theorem Matched.request_iff (hm : c.Matched line bus rs) (h : c.Going line)
    (hr : r ∈ c.bus.timers) : bus.interrupts.Ready (line r) ↔
      r ∈ (c.agenda line).waiting ∪ (c.agenda line).raised c.clients := by
  refine (hm.ready_iff h _).trans ⟨fun ⟨u, hu, hl⟩ => ?_, fun hr => ⟨r, hr, rfl⟩⟩
  exact h.wired.injective u (h.mem_timers hu) r hr hl ▸ hu

theorem Matched.timers (hm : c.Matched line bus rs) : c.step.1.bus.timers = c.bus.timers := by
  rw [hm.step]
  exact hm.signals.timers

theorem Matched.going (hm : c.Matched line bus rs) (h : c.Going line) : c.step.1.Going line := by
  refine ⟨?_, synced_step h.synced, ?_, ?_, fun l hl => ?_⟩
  · rw [hm.step]
    exact h.power
  · rw [hm.step]
    exact hm.wired.of_withPending rfl (fun _ => rfl) hm.dispatched.withPending
  · rw [hm.step]
    intro r k hk
    obtain ⟨-, hbefore⟩ := h.synced.remaining_of_signals hm.synced hm.signals hk
    have htime := h.inTime r (k + 1) hbefore
    have hclock : bus.clock.cycles = c.bus.clock.cycles + 1 := congrArg _ hm.signals.clock
    have hnext : bus.clock.cycles.toNat = c.bus.clock.cycles.toNat + 1 := by
      rw [hclock, UInt64.toNat_add]
      exact Nat.mod_eq_of_lt (by simp; omega)
    change bus.clock.cycles.toNat + k < 2 ^ 64
    omega
  · rw [hm.step] at hl
    obtain ⟨r, hr, hline⟩ := (hm.ready_iff h l).1 ((hm.dispatched.ready_iff l).1 hl).1
    exact ⟨r, hm.timers ▸ h.mem_timers hr, hline⟩

/-- The timer whose handler is invoked, if any. -/
structure Serves (c : CPU T H) (line : T → Fin maxInterrupts) (served : Option T) : Prop where
  iff : ∀ r ∈ c.bus.timers, served = some r ↔ ∃ s ∈ c.service, s.line = line r
  exists_request : ∀ r ∈ served, r ∈ (c.agenda line).waiting ∪ (c.agenda line).raised c.clients
  none : served = none → c.service = none

theorem Serves.serves_iff (h : c.Serves line served) (hr : r ∈ c.bus.timers) :
    (InterruptLabel.step c.service : InterruptLabel T H).serves (line r) = true ↔ r ∈ served := by
  rw [Option.mem_def, h.iff r hr]
  simp [InterruptLabel.serves, Option.any_eq_true]

theorem Matched.exists_serves (hm : c.Matched line bus rs) (h : c.Going line) :
    ∃ served, c.Serves line served := by
  rcases hsvc : c.service with _ | s
  · exact ⟨none, fun r _ => by simp [hsvc], nofun, fun _ => hsvc⟩
  · obtain ⟨r, hr, hl⟩ := (hm.ready_iff h _).1 (hm.dispatched.first s hsvc).1
    refine ⟨some r, fun u hu => ?_, fun u hu => Option.some.inj hu ▸ hr, nofun⟩
    simp only [hsvc, Option.some.injEq, Option.mem_some_iff, exists_eq_left', ← hl]
    exact ⟨congrArg line, h.wired.injective r (h.mem_timers hr) u hu⟩

/-- A step of the requests. -/
theorem Matched.agenda_step (hm : c.Matched line bus rs) (h : c.Going line)
    (hserves : c.Serves line served) :
    (c.agenda line).Step c.clients served (c.step.1.agenda line) := by
  refine ⟨fun r => ?_, hserves.exists_request, fun hidle => ?_, fun r k hk => ?_⟩
  · rw [mem_waiting, hm.timers, hm.step]
    constructor
    · rintro ⟨hr, hl⟩
      obtain ⟨hl, hnot⟩ := (hm.dispatched.ready_iff _).1 hl
      refine ⟨(hm.request_iff h hr).1 hl, fun hserved => ?_⟩
      obtain ⟨s, hs, hline⟩ := (hserves.iff r hr).1 hserved
      exact hnot s hs hline.symm
    · rintro ⟨hrequest, hnot⟩
      have hr := h.mem_timers hrequest
      refine ⟨hr, (hm.dispatched.ready_iff _).2 ⟨(hm.request_iff h hr).2 hrequest, ?_⟩⟩
      exact fun s hs hline => hnot ((hserves.iff r hr).2 ⟨s, hs, hline.symm⟩)
  · refine Finset.eq_empty_of_forall_notMem fun r hr => ?_
    exact hm.dispatched.idle (hserves.none hidle) (line r)
      ((hm.request_iff h (h.mem_timers hr)).2 hr)
  · rw [hm.step] at hk
    exact h.synced.remaining_of_signals hm.synced hm.signals hk

theorem Matched.count (hm : c.Matched line bus rs) (h : c.Going line) (r : T) :
    c.step.1.bus.triggered.count r = c.bus.triggered.count r +
      if r ∈ (c.agenda line).raised c.clients then 1 else 0 := by
  have htriggered : c.step.1.bus.triggered = rs.reverse ++ c.bus.triggered := by
    rw [hm.step]
    exact hm.signals.triggered
  rw [htriggered, List.count_append, List.count_reverse, Nat.add_comm, hm.nodup.count]
  simp only [h.mem_raised, ← hm.mem_iff]

/-! ### One call -/

omit [DecidableEq T] in
theorem line_perform {t : Timer} {clock : SimulationClock} {sched : EventScheduler T}
    (hattach : ∀ id, o ≠ .attachInterruptController id) (hdetach : o ≠ .detachInterruptController) :
    (t.perform r clock sched o).1.line = t.line := by
  cases o with
  | start => exact t.line_start r clock sched
  | stop => exact t.line_stop sched
  | reset => exact t.line_reset clock sched
  | setCompare value => exact t.line_setCompare r clock sched value
  | clearMatch | setAutoReset _ | setInterruptEnabled _ => rfl
  | attachInterruptController id => exact absurd rfl (hattach id)
  | detachInterruptController => exact absurd rfl hdetach

theorem Going.call (h : c.Going line) (ha : c.Allows r o) :
    (c.perform (.timer r o)).Going line := by
  have hvalid : (TimerLabel.timer r o).Valid := by
    cases o with
    | attachInterruptController id => exact absurd rfl (ha.attach id)
    | _ => trivial
  refine ⟨h.power, synced_perform h.synced hvalid ha.idsUnique, ?_, fun u k hk => ?_, h.ready⟩
  · refine h.wired.of_withPending rfl (fun u => ?_) ⟨c.bus.interrupts.pendingRegister.read, rfl⟩
    by_cases hu : u = r
    · subst hu
      exact (congrArg Timer.line (Function.update_self ..)).trans (line_perform ha.attach ha.detach)
    · exact congrArg Timer.line (Function.update_of_ne hu ..)
  · by_cases hu : u = r
    · subst hu
      rcases ha.spaced k hk with hsame | ⟨-, htime⟩
      · exact h.inTime u k hsame
      · exact htime
    · have hsame : (c.perform (.timer r o)).bus.timer u = c.bus.timer u :=
        Function.update_of_ne hu ..
      exact h.inTime u k (hsame ▸ hk)

theorem Going.announce (h : c.Going line) (ha : c.Allows r o) :
    (c.agenda line).Announce c.clients ((c.perform (.timer r o)).agenda line) := by
  have hcard : c.clients.card = c.bus.timers.length := List.toFinset_card_of_nodup h.synced.timers
  refine ⟨rfl, fun u k hk => ?_⟩
  by_cases hu : u = r
  · subst hu
    exact (ha.spaced k hk).imp_right fun hle => hcard ▸ hle.1
  · have hsame : (c.perform (.timer r o)).bus.timer u = c.bus.timer u :=
      Function.update_of_ne hu ..
    exact .inl ((congrArg Timer.remaining hsame).symm.trans hk)

/-! ### Runs -/

variable {c' c'' : CPU T H} {ls ks : List (InterruptLabel T H)}

/-- What holds after the run `ls`. -/
structure Followed (c : CPU T H) (line : T → Fin maxInterrupts) (ls : List (InterruptLabel T H))
    (c' : CPU T H) : Prop where
  going : c'.Going line
  timers : c'.bus.timers = c.bus.timers
  busy : ∃ asked n, (c'.agenda line).Busy c'.clients asked n
  /-- The matches of a timer have invoked its handler, or the last of them waits. -/
  handled : ∀ r ∈ c.bus.timers, c'.bus.triggered.count r = c.bus.triggered.count r +
    ls.countP (·.serves (line r)) + if c'.bus.interrupts.Ready (line r) then 1 else 0

theorem Followed.nil (h : c.Going line) (hidle : ∀ l, ¬ c.bus.interrupts.Ready l) :
    c.Followed line [] c := by
  have hwaiting : (c.agenda line).waiting = ∅ :=
    Finset.filter_false_of_mem fun r _ => hidle (line r)
  refine ⟨h, rfl, ⟨∅, 0, Agenda.busy_of_idle hwaiting⟩, fun r _ => ?_⟩
  rw [if_neg (hidle _)]
  rfl

theorem Followed.step (h : c.Followed line ls c') :
    c.Followed line (ls ++ [.step c'.service]) c'.step.1 := by
  obtain ⟨bus, rs, hm⟩ := h.going.matched
  obtain ⟨served, hserves⟩ := hm.exists_serves h.going
  obtain ⟨asked, n, hbusy⟩ := h.busy
  have hstep := hm.agenda_step h.going hserves
  have hclients : c'.step.1.clients = c'.clients := by rw [clients, hm.timers, clients]
  refine ⟨hm.going h.going, hm.timers.trans h.timers, hclients ▸ hbusy.step hstep, fun r hr => ?_⟩
  have hr' : r ∈ c'.bus.timers := h.timers ▸ hr
  have hbalance := hbusy.balance hstep r
  simp only [mem_waiting, hm.timers, hr', true_and] at hbalance
  rw [hm.count h.going, h.handled r hr, List.countP_append, List.countP_singleton]
  simp only [hserves.serves_iff hr']
  omega

theorem Followed.call (h : c.Followed line ls c') (ha : c'.Allows r o) :
    c.Followed line (ls ++ [.call r o]) (c'.perform (.timer r o)) := by
  obtain ⟨asked, n, hbusy⟩ := h.busy
  refine ⟨h.going.call ha, h.timers, ⟨asked, n, hbusy.announce (h.going.announce ha)⟩,
    fun u hu => ?_⟩
  rw [List.countP_append]
  exact h.handled u hu

theorem Going.followed (h : c.Going line) (hidle : ∀ l, ¬ c.bus.interrupts.Ready l)
    (hrun : (interruptLts T H).Run c ls c') : c.Followed line ls c' := by
  refine hrun.history (I := fun ls c' => c.Followed line ls c') (.nil h hidle) ?_
  rintro ks d l e hd hstep
  cases l with
  | step svc =>
    obtain ⟨rfl, rfl⟩ := hstep
    exact hd.step
  | call r o =>
    obtain ⟨ha, rfl⟩ := hstep
    exact hd.call ha

/-- **No match is lost, and none is handled twice.**  No step throws, and each match of a timer has
invoked its handler once, but for the last one as long as it waits for its dispatch. -/
theorem handled_of_run (h : c.Going line) (hidle : ∀ l, ¬ c.bus.interrupts.Ready l)
    (hrun : (interruptLts T H).Run c ls c') : c'.step.2.1 = none ∧
    ∀ r ∈ c.bus.timers, c'.bus.triggered.count r = c.bus.triggered.count r +
      ls.countP (·.serves (line r)) + if c'.bus.interrupts.Ready (line r) then 1 else 0 := by
  have hfollowed := h.followed hidle hrun
  obtain ⟨bus, rs, hm⟩ := hfollowed.going.matched
  exact ⟨hm.thrown, hfollowed.handled⟩

/-- A busy period goes on as long as the match of a timer waits. -/
theorem Going.waits {asked : Finset T} {n : ℕ} (h : c.Going line)
    (hbusy : (c.agenda line).Busy c.clients asked n) (hr : r ∈ (c.agenda line).waiting)
    (hrun : (interruptLts T H).Run c ls c') (hnot : ∀ l ∈ ls, l.serves (line r) = false) :
    ls.countP InterruptLabel.isStep + n < c.bus.timers.length := by
  -- over the run; `asked` and `n` are the busy period so far
  induction hrun generalizing asked n with
  | nil c =>
    have hlt := (hbusy.lt_card hr).2
    have hcard : c.clients.card = c.bus.timers.length :=
      List.toFinset_card_of_nodup h.synced.timers
    simpa [hcard] using hlt
  | @cons c d e l ls hstep _ ih =>
    obtain ⟨hl, hls⟩ := List.forall_mem_cons.1 hnot
    cases l with
    | step svc =>
      obtain ⟨rfl, rfl⟩ := hstep
      obtain ⟨bus, rs, hm⟩ := h.matched
      obtain ⟨served, hserves⟩ := hm.exists_serves h
      have hagenda := hm.agenda_step h hserves
      obtain ⟨asked', hbusy'⟩ := hbusy.step_of_waiting hagenda hr
      have hclients : c.step.1.clients = c.clients := by rw [clients, hm.timers, clients]
      have hpassed : r ∉ served := fun hserved => Bool.false_ne_true
        (hl.symm.trans ((hserves.serves_iff (mem_waiting.1 hr).1).2 hserved))
      have hlt := ih (hm.going h) (hclients ▸ hbusy')
        ((hagenda.waiting r).2 ⟨Finset.mem_union_left _ hr, hpassed⟩) hls
      rw [hm.timers] at hlt
      simp only [List.countP_cons, InterruptLabel.isStep, ↓reduceIte]
      omega
    | call u o =>
      -- a call takes no cycle, and the busy period goes on
      obtain ⟨ha, rfl⟩ := hstep
      have hlt := ih (h.call ha) (hbusy.announce (h.announce ha)) hr hls
      have hcount : (InterruptLabel.call u o :: ls).countP InterruptLabel.isStep =
          ls.countP InterruptLabel.isStep := List.countP_cons_of_neg Bool.false_ne_true
      rw [hcount]
      exact hlt

/-- **Bounded response.**  From the step in which a timer has matched to that which invokes its
handler there are fewer steps than timers. -/
theorem response_of_run (h : c.Going line) (hidle : ∀ l, ¬ c.bus.interrupts.Ready l)
    (hrun : (interruptLts T H).Run c ls c') (hr : r ∈ c.bus.timers)
    (hready : c'.bus.interrupts.Ready (line r)) (hrun' : (interruptLts T H).Run c' ks c'')
    (hnot : ∀ l ∈ ks, l.serves (line r) = false) :
    ks.countP InterruptLabel.isStep + 1 < c.bus.timers.length := by
  have hfollowed := h.followed hidle hrun
  obtain ⟨asked, n, hbusy⟩ := hfollowed.busy
  have hwaiting : r ∈ (c'.agenda line).waiting :=
    mem_waiting.2 ⟨hfollowed.timers ▸ hr, hready⟩
  have hpos := (hbusy.lt_card hwaiting).1
  have hlt := hfollowed.going.waits hbusy hwaiting hrun' hnot
  rw [hfollowed.timers] at hlt
  omega

/-! ### Two timers -/

/-- A bus without timers, and with handlers on the lines 0 and 4. -/
def twoHandlers : CPU Bool Unit :=
  let setUp (id : UInt8) : List (InterruptController.Op Unit) :=
    [.registerInterrupt id, .enable id, .registerHandler id (some ())]
  ⟨.on, 0, ⟨⟨0⟩, .init, ([0, 4].flatMap setUp).foldl .perform .init, [], fun _ => .new, []⟩⟩

/-- The calls that start a timer on the bus, for a match in two cycles. -/
def startUp (r : Bool) (id : UInt8) : List (TimerLabel Bool) :=
  [.timer r (.attachInterruptController id), .timer r (.setCompare 2), .attachTimer r,
    .timer r .start]

/-- Two timers of different interrupt lines, started on one board. -/
def twoTimers : CPU Bool Unit := (startUp false 4 ++ startUp true 0).foldl CPU.perform twoHandlers

/-- The lines of the two timers. -/
def twoLines (r : Bool) : Fin maxInterrupts := if r then ⟨0, by decide⟩ else ⟨4, by decide⟩

theorem synced_twoTimers : twoTimers.bus.Synced := by
  have hnew : NewBus twoHandlers.bus := ⟨rfl, rfl, fun _ => rfl⟩
  have hline := synced_perform (l := .timer false (.attachInterruptController 4)) hnew.synced
    (by decide : (4 : UInt8).toNat < 32) (by decide)
  have hcompare := synced_perform (l := .timer false (.setCompare 2)) hline trivial (by decide)
  have hattached := synced_perform (l := .attachTimer false) hcompare trivial (by decide)
  have hfirst := synced_perform (l := .timer false .start) hattached trivial (by decide)
  have hline := synced_perform (l := .timer true (.attachInterruptController 0)) hfirst
    (by decide : (0 : UInt8).toNat < 32) (by decide)
  have hcompare := synced_perform (l := .timer true (.setCompare 2)) hline trivial (by decide)
  have hattached := synced_perform (l := .attachTimer true) hcompare trivial (by decide)
  exact synced_perform (l := .timer true .start) hattached trivial (by decide)

theorem going_twoTimers : twoTimers.Going twoLines := by
  refine ⟨rfl, synced_twoTimers, ⟨⟨by decide, by decide, by decide, ?_⟩, ?_⟩, ?_, ?_⟩
  · exact InterruptController.handlersRegistered_of_reachable ⟨_, InterruptController.run_foldl _ _⟩
  · rintro (_ | _) -
    · exact ⟨4, by decide, by decide⟩
    · exact ⟨0, by decide, by decide⟩
  · intro r k hk
    have htwo : (twoTimers.bus.timer r).remaining = some 2 := by cases r <;> decide
    obtain rfl := Option.some.inj (htwo.symm.trans hk)
    decide
  · exact fun l hl => absurd hl (by revert l; decide)

/-- Both timers have matched, and the handler of the second one has been invoked. -/
def twoMatched : CPU Bool Unit := twoTimers.step.1.step.1

theorem run_twoMatched : (interruptLts Bool Unit).Run twoTimers
    [.step twoTimers.service, .step twoTimers.step.1.service] twoMatched :=
  .cons ⟨rfl, rfl⟩ (.single ⟨rfl, rfl⟩)

/-- The second timer is started again. -/
def restart : List (InterruptLabel Bool Unit) := [.call true .reset, .call true .start]

/-- The board after both matches, with the second timer started once more. -/
def twoRestarted : CPU Bool Unit :=
  (twoMatched.perform (.timer true .reset)).perform (.timer true .start)

theorem run_restart : (interruptLts Bool Unit).Run twoMatched restart twoRestarted := by
  refine .cons ⟨⟨nofun, nofun, by decide, fun k hk => ?_⟩, rfl⟩
    (.single ⟨⟨nofun, nofun, by decide, fun k hk => .inr ?_⟩, rfl⟩)
  · have hnone : ((twoMatched.perform (.timer true .reset)).bus.timer true).remaining = none := by
      decide
    exact absurd (hnone.symm.trans hk) nofun
  · have htwo : (twoRestarted.bus.timer true).remaining = some 2 := by decide +kernel
    obtain rfl := Option.some.inj (htwo.symm.trans hk)
    decide

/-- The handler of the first timer still has to be invoked. -/
theorem handled_of_run_twoTimers : ∃ (c' : CPU Bool Unit) (ls : List (InterruptLabel Bool Unit)),
    (interruptLts Bool Unit).Run twoTimers ls c' ∧ c'.bus.interrupts.Ready (twoLines false) ∧
      c'.bus.triggered.count false = ls.countP (·.serves (twoLines false)) + 1 := by
  have hrun := run_twoMatched.append run_restart
  have hidle : ∀ l, ¬ twoTimers.bus.interrupts.Ready l := by decide
  have hready : twoRestarted.bus.interrupts.Ready (twoLines false) := by decide +kernel
  have hcount := (handled_of_run going_twoTimers hidle hrun).2 false (by decide)
  have hzero : twoTimers.bus.triggered.count false = 0 := by decide
  rw [if_pos hready, hzero, Nat.zero_add] at hcount
  exact ⟨_, _, hrun, hready, hcount⟩

theorem response_of_run_twoTimers : ∃ (c' : CPU Bool Unit) (ls : List (InterruptLabel Bool Unit)),
    (interruptLts Bool Unit).Run twoTimers ls c' ∧ c'.bus.interrupts.Ready (twoLines false) ∧
      restart.countP InterruptLabel.isStep + 1 < 2 :=
  ⟨twoMatched, _, run_twoMatched, by decide,
    response_of_run (r := false) going_twoTimers (by decide) run_twoMatched (by decide) (by decide)
      run_restart (by decide)⟩

end CPU

end Cpu

end EFS
