import EFS.Kernel.Clients
import EFS.System.Quiet
import EFS.System.TimerEvents

/-!
# The matches of one step

Which timers match in a step of a bus, and what their matches do to the interrupt lines.

* `Timer.remaining` : in how many cycles the event of a timer is due.
* `Synced.signals` : a step triggers the lines of the timers whose events are due in one cycle.
* `Synced.remaining_of_signals` : for the others, one cycle less remains.
-/

namespace EFS

namespace Drivers

open EFS.System

namespace Timer

variable {t : Timer} {clock : SimulationClock} {k : ℕ}

/-- In how many cycles the event of the timer is due, if it has one. -/
def remaining (t : Timer) : Option ℕ :=
  if t.scheduledEventId = 0 then none else some (t.compare - t.counter).toNat

theorem remaining_eq_some : t.remaining = some k ↔
    t.scheduledEventId ≠ 0 ∧ (t.compare - t.counter).toNat = k := by
  rw [remaining]
  split_ifs with h
  · exact iff_of_false nofun fun hk => hk.1 h
  · simp [h]

theorem remaining_eq_one (hw : t.Waiting) :
    t.remaining = some 1 ↔ t.scheduledEventId ≠ 0 ∧ t.Due := by
  rw [remaining_eq_some, Due, le_succ_iff hw.2, and_iff_right hw.1]

theorem remaining_ticked (hw : t.Waiting) (hw' : (t.ticked clock).Waiting)
    (h : (t.ticked clock).remaining = some k) : 0 < k ∧ t.remaining = some (k + 1) := by
  obtain ⟨hid, hk⟩ := remaining_eq_some.1 h
  have hcount : (t.ticked clock).counter = t.counter + 1 := by simp [ticked, hw.1, counter]
  have hcompare : (t.ticked clock).compare = t.compare := rfl
  have hlt : (t.counter + 1).toNat < t.compare.toNat := by
    have hlt := UInt32.lt_iff_toNat_lt.1 hw'.2
    rwa [hcount, hcompare] at hlt
  have hadd : (t.counter + 1).toNat = t.counter.toNat + 1 := by
    have hcounter := UInt32.lt_iff_toNat_lt.1 hw.2
    have hsize := t.compare.toNat_lt
    rw [UInt32.toNat_add]
    exact Nat.mod_eq_of_lt (by simp; omega)
  rw [toNat_sub_of_lt hw'.2, hcount, hcompare, hadd] at hk
  refine ⟨by omega, remaining_eq_some.2 ⟨hid, ?_⟩⟩
  rw [toNat_sub_of_lt hw.2]
  omega

end Timer

end Drivers

namespace System

open EFS.Drivers EFS.Kernel

namespace Board

variable {T H : Type}

/-- The interrupts of the attached timers are set up. -/
structure Wired (b : Board T H) (line : T → Fin maxInterrupts) : Prop
    extends b.interrupts.SetUp b.timers line where
  attached : ∀ r ∈ b.timers, ∃ id, (b.timer r).line = some id ∧ id.toNat = line r

/-- The events of the timers are due before the clock wraps. -/
def InTime (b : Board T H) : Prop :=
  ∀ r, ∀ k ∈ (b.timer r).remaining, b.clock.cycles.toNat + k < 2 ^ 64

/-- The timers `rs` match. -/
structure Signals (line : T → Fin maxInterrupts) (b : Board T H) (rs : List T) (b' : Board T H) :
    Prop where
  clock : b'.clock = b.clock
  timers : b'.timers = b.timers
  timer : ∀ r, r ∉ rs → b'.timer r = b.timer r
  stopped : ∀ r ∈ rs, (b'.timer r).scheduledEventId = 0
  line_eq : ∀ r, (b'.timer r).line = (b.timer r).line
  triggered : b'.triggered = rs.reverse ++ b.triggered
  interrupts : ∃ v, b'.interrupts = b.interrupts.withPending v ∧
    ∀ l, v &&& InterruptController.bit l ≠ 0 ↔ b.interrupts.Pending l ∨ ∃ r ∈ rs, line r = l

variable {b b' b'' : Board T H} {line : T → Fin maxInterrupts} {r : T} {rs : List T}

theorem Signals.nil (line : T → Fin maxInterrupts) (b : Board T H) : Signals line b [] b :=
  ⟨rfl, rfl, fun _ _ => rfl, nofun, fun _ => rfl, rfl,
    b.interrupts.pendingRegister.read, rfl, fun _ => by simp [InterruptController.Pending]⟩

theorem Wired.of_withPending (h : b.Wired line) (htimers : b'.timers = b.timers)
    (hline : ∀ r, (b'.timer r).line = (b.timer r).line)
    (hic : ∃ v, b'.interrupts = b.interrupts.withPending v) : b'.Wired line := by
  obtain ⟨v, hv⟩ := hic
  refine ⟨?_, fun r hr => ?_⟩
  · rw [hv, htimers]
    exact h.toSetUp.withPending v
  · rw [hline]
    exact h.attached r (htimers ▸ hr)

variable [DecidableEq T]

theorem matchTimer_of_running {id : UInt8} {l : Fin maxInterrupts}
    (hrun : (b.timer r).running = true) (hline : (b.timer r).line = some id) (hid : id.toNat = l)
    (hregistered : b.interrupts.registered l = true) :
    b.matchTimer r = ({ b.setTimer r ((b.timer r).matched.stop b.scheduler).1
        ((b.timer r).matched.stop b.scheduler).2 with
      interrupts := b.interrupts.withPending
        (b.interrupts.pendingRegister.read ||| InterruptController.bit l)
      triggered := r :: b.triggered }, none) := by
  have htrigger := InterruptController.trigger_of_registered hid hregistered
  rw [matchTimer, Timer.handleCompareMatch, if_neg (not_not.2 hrun), hline]
  simp only [trigger, setTimer, htrigger]

/-- The first timer of a batch matches, and then the others. -/
theorem Signals.cons {id : UInt8} {t : Timer} {sched : EventScheduler T}
    (hid : id.toNat = line r) (hline : t.line = (b.timer r).line) (ht : t.scheduledEventId = 0)
    (hr : r ∉ rs)
    (h : Signals line { b.setTimer r t sched with
      interrupts := b.interrupts.withPending
        (b.interrupts.pendingRegister.read ||| InterruptController.bit (line r))
      triggered := r :: b.triggered } rs b') : Signals line b (r :: rs) b' where
  clock := h.clock
  timers := h.timers
  timer u hu := by
    obtain ⟨hne, hu⟩ := not_or.1 (List.mem_cons.not.1 hu)
    exact (h.timer u hu).trans (Function.update_of_ne hne ..)
  stopped u hu := by
    rcases List.mem_cons.1 hu with rfl | hu
    · rw [h.timer u hr]
      exact (congrArg Timer.scheduledEventId (Function.update_self ..)).trans ht
    · exact h.stopped u hu
  line_eq u := by
    refine (h.line_eq u).trans ?_
    by_cases hu : u = r
    · subst hu
      exact (congrArg Timer.line (Function.update_self ..)).trans hline
    · exact congrArg Timer.line (Function.update_of_ne hu ..)
  triggered := by
    rw [h.triggered, List.reverse_cons, List.append_assoc]
    rfl
  interrupts := by
    obtain ⟨v, hv, hbits⟩ := h.interrupts
    refine ⟨v, hv, fun l => (hbits l).trans ?_⟩
    have hpending : (b.interrupts.withPending (b.interrupts.pendingRegister.read |||
        InterruptController.bit (line r))).Pending l ↔ b.interrupts.Pending l ∨ l = line r :=
      InterruptController.or_bit_ne_zero ..
    simp only [hpending, List.mem_cons, exists_eq_or_imp, or_assoc, eq_comm (a := l)]

/-- One callback of a batch, which does not come again. -/
theorem Executing.matchTimer_signals {ev : Event T} {rest : List (Event T)}
    (h : Executing b (ev :: rest)) (hw : b.Wired line) :
    ∃ r b₁, ev.callback = some r ∧ b.matchTimer r = (b₁, none) ∧ Executing b₁ rest ∧
      b₁.Wired line ∧ (∀ ev ∈ rest, ev.callback ≠ some r) ∧
      ∀ rs b', r ∉ rs → Signals line b₁ rs b' → Signals line b (r :: rs) b' := by
  obtain ⟨r, b₁, hcallback, hmatch, hnext⟩ := h.matchTimer
  obtain ⟨h₀, -⟩ := h.events.eq_own List.mem_cons_self hcallback
  obtain ⟨hr, hrun⟩ := h.running r h₀
  obtain ⟨id, hline, hid⟩ := hw.attached r hr
  have hmatched := matchTimer_of_running hrun hline hid (hw.registered hr)
  obtain ⟨rfl, -⟩ := Prod.mk.inj (hmatch.symm.trans hmatched)
  set t := ((b.timer r).matched.stop b.scheduler).1 with ht
  set sched := ((b.timer r).matched.stop b.scheduler).2
  have htline : t.line = (b.timer r).line := (b.timer r).matched.line_stop b.scheduler
  have hself : (b.setTimer r t sched).timer r = t := Function.update_self ..
  have hstopped : t.scheduledEventId = 0 := by
    by_contra hne
    have hrunning := (hnext.running r (ne_of_eq_of_ne (congrArg _ hself) hne)).2
    exact Bool.false_ne_true (running_stop.symm.trans ((congrArg _ hself).symm.trans hrunning))
  refine ⟨r, _, hcallback, hmatch, hnext, ?_, fun ev hev hcallback => ?_,
    fun rs b' hr => Signals.cons hid htline hstopped hr⟩
  · refine hw.of_withPending rfl (fun u => ?_) ⟨_, rfl⟩
    by_cases hu : u = r
    · subst hu
      exact (congrArg Timer.line hself).trans htline
    · exact congrArg Timer.line (Function.update_of_ne hu ..)
  · obtain ⟨hne, -⟩ := hnext.events.eq_own (List.mem_append_left _ hev) hcallback
    exact hne ((congrArg _ hself).trans hstopped)

/-- **Loop lemma.** -/
theorem Executing.signals {batch : List (Event T)} (h : Executing b batch) (hw : b.Wired line) :
    ∃ b', b.runBatch batch = (b', none) ∧ b'.Synced ∧
      Signals line b (batch.filterMap Event.callback) b' ∧
      (batch.filterMap Event.callback).Nodup := by
  induction batch generalizing b with
  | nil =>
    obtain ⟨b', hrun, hsynced⟩ := h.runBatch
    obtain ⟨rfl, -⟩ := Prod.mk.inj hrun
    exact ⟨b, hrun, hsynced, .nil line b, List.nodup_nil⟩
  | cons ev rest ih =>
    obtain ⟨r, b₁, hcallback, hmatch, hnext, hw₁, hother, hcons⟩ := h.matchTimer_signals hw
    obtain ⟨b', hrun, hsynced, hsignals, hnodup⟩ := ih hnext hw₁
    have hr : r ∉ rest.filterMap Event.callback := by
      intro hr
      obtain ⟨ev, hev, hcallback⟩ := List.mem_filterMap.1 hr
      exact hother ev hev hcallback
    rw [List.filterMap_cons_some hcallback]
    refine ⟨b', ?_, hsynced, hcons _ b' hr hsignals, List.nodup_cons.2 ⟨hr, hnodup⟩⟩
    simp only [Board.runBatch, hcallback, hmatch]
    exact hrun

/-- **Step lemma.**  In a step, the timers match whose events are due in one cycle. -/
theorem Synced.signals (h : b.Synced) (hw : b.Wired line) (hin : b.InTime) :
    ∃ b' rs, b.ticked.executeReadyEvents b.ticked.clock.cycles = (b', none) ∧ b'.Synced ∧
      Signals line b.ticked rs b' ∧ rs.Nodup ∧
      ∀ r, r ∈ rs ↔ (b.timer r).remaining = some 1 := by
  have hline (r : T) : (b.ticked.timer r).line = (b.timer r).line := by
    simp only [ticked]
    split_ifs <;> rfl
  have hticked : { b.ticked with
      scheduler := (b.scheduler.takeReady b.ticked.clock.cycles).2 : Board T H }.Wired line :=
    hw.of_withPending rfl hline ⟨b.interrupts.pendingRegister.read, rfl⟩
  obtain ⟨b', hrun, hsynced, hs, hnodup⟩ := h.executing.signals hticked
  refine ⟨b', _, (executeReadyEvents_eq _).trans hrun, hsynced,
    ⟨hs.clock, hs.timers, hs.timer, hs.stopped, hs.line_eq, hs.triggered, hs.interrupts⟩, hnodup,
    fun r => ?_⟩
  -- a match that is due before the clock wraps is ready in the cycle before which one cycle
  -- remained
  have hdue (h₀ : (b.timer r).scheduledEventId ≠ 0) :
      (ownEvent (b.timer r) r b.clock).cycle ≤ b.ticked.clock.cycles ↔
        (b.timer r).remaining = some 1 := by
    obtain ⟨-, hwait⟩ := h.waiting r h₀
    have htime := hin r _ (Timer.remaining_eq_some.2 ⟨h₀, rfl⟩)
    rw [Timer.remaining_eq_one hwait, and_iff_right h₀]
    exact Timer.ready_iff_due hwait (.inl htime)
  rw [List.mem_filterMap]
  constructor
  · rintro ⟨ev, hev, hcallback⟩
    obtain ⟨hev, hcycle⟩ := b.scheduler.mem_takeReady.1 hev
    obtain ⟨h₀, rfl⟩ := h.events.eq_own hev hcallback
    exact (hdue h₀).1 hcycle
  · intro hone
    have h₀ := (Timer.remaining_eq_some.1 hone).1
    exact ⟨_, b.scheduler.mem_takeReady.2 ⟨h.events.own_mem h₀, (hdue h₀).2 hone⟩, rfl⟩

theorem Synced.remaining_of_signals {k : ℕ} (h : b.Synced) (h' : b'.Synced)
    (hs : Signals line b.ticked rs b') (hk : (b'.timer r).remaining = some k) :
    0 < k ∧ (b.timer r).remaining = some (k + 1) := by
  have h₀ := (Timer.remaining_eq_some.1 hk).1
  have hr : r ∉ rs := fun hr => h₀ (hs.stopped r hr)
  obtain ⟨hmem, hwait'⟩ := h'.waiting r h₀
  have hticked : b'.timer r = (b.timer r).ticked b.clock := by
    rw [hs.timers] at hmem
    exact (hs.timer r hr).trans (if_pos hmem)
  rw [hticked] at h₀ hwait' hk
  exact Timer.remaining_ticked (h.waiting r h₀).2 hwait' hk

end Board

end System

end EFS
