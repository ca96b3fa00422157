import EFS.LTS.Basic
import EFS.System.AttachOrder

/-!
# The order in which timers are attached

The same timers are attached to a bus in two orders, and then the same calls and steps are performed
in both runs.  The boards differ in the order of the ticks and in the ids of the events, but not in
their views; so the registers agree, as long as the ids are unique.

## Main results

* `sameRegisters_of_perm` : in runs whose operations get unique ids, the registers agree.
* `not_sameRegisters_of_perm` : after 2^64 events the ids are not unique, and they do not.
-/

namespace EFS

namespace Cpu

open EFS.System EFS.Drivers EFS.Mmio

variable {T H : Type}

/-- The operations: a step, attaching a timer, and the calls of its public functions. -/
inductive ApiLabel (T : Type) where
  | step
  | attachTimer (r : T)
  | call (r : T) (k : Timer.ApiCall)

/-- Interrupt ids are below 32. -/
def ApiLabel.Valid : ApiLabel T → Prop
  | .call _ (.op (.attachInterruptController id)) => id.toNat < 32
  | _ => True

/-- A bus without timers and events. -/
structure Unattached (bus : Board T H) : Prop where
  timers : bus.timers = []
  events : bus.scheduler.events = []
  noEvent : ∀ r, (bus.timer r).scheduledEventId = 0
  lines : ∀ r, ∀ id ∈ (bus.timer r).line, id.toNat < 32

theorem Unattached.represents {bus : Board T H} (h : Unattached bus) :
    bus.Represents [] bus.busView := by
  refine ⟨rfl, ⟨?_, ?_, fun r hr => absurd (h.noEvent r) hr⟩, h.lines⟩
  · simp [h.events]
  · intro ev hev
    simp [h.events] at hev

/-- The registers of all timers and of the interrupt controller are the same. -/
structure SameRegisters (b b' : Board T H) : Prop where
  timer : ∀ r, (b.timer r).register = (b'.timer r).register
  enable : b.interrupts.enableRegister = b'.interrupts.enableRegister
  pending : b.interrupts.pendingRegister = b'.interrupts.pendingRegister

theorem SameRegisters.of_represents {b b' : Board T H} {v : BusView T H} (h : b.Represents [] v)
    (h' : b'.Represents [] v) : SameRegisters b b' := by
  refine ⟨?_, ?_, ?_⟩
  · intro r
    rw [← Timer.register_withoutEvent, ← h.timer r, h'.timer r, Timer.register_withoutEvent]
  · exact congrArg (·.interrupts.enableRegister) (h.view.trans h'.view.symm)
  · exact congrArg (·.interrupts.pendingRegister) (h.view.trans h'.view.symm)

variable [DecidableEq T]

/-- The board after a cycle, an attachment or a call of the program. -/
def CPU.performCall (c : CPU T H) : ApiLabel T → CPU T H
  | .step => c.step.1
  | .attachTimer r => { c with bus := c.bus.attachTimer r }
  | .call r k => { c with bus := c.bus.apiCall r k }

/-- The runs of a board under calls that the timer accepts. -/
def apiLts (T H : Type) [DecidableEq T] : LTS (CPU T H) (ApiLabel T) where
  step c l c' := l.Valid ∧ c' = c.performCall l

/-- An operation that schedules an event gets an id that is valid and not that of an event of
another timer. -/
def CallIdsUnique (c : CPU T H) : ApiLabel T → Prop
  | .step => True
  | .attachTimer r =>
    r ∉ c.bus.timers → (c.bus.timer r).Waiting → NextIdUnique c.bus.scheduler r
  | .call r k => c.bus.CallIdUnique r k

instance (c : CPU T H) : DecidablePred (CallIdsUnique c)
  | .step => inferInstanceAs (Decidable True)
  | .attachTimer _ => inferInstanceAs (Decidable (_ → _))
  | .call r k => inferInstanceAs (Decidable (c.bus.CallIdUnique r k))

theorem represents_of_attach {c d : CPU T H} {rs : List T} {v : BusView T H}
    (h : c.bus.Represents [] v)
    (hrun : ((apiLts T H).restrict CallIdsUnique).Run c (rs.map .attachTimer) d) :
    d.power = c.power ∧ d.bus.Represents [] (rs.foldl BusView.attachTimer v) := by
  induction rs generalizing c v with
  | nil =>
    cases hrun
    exact ⟨rfl, h⟩
  | cons r rs ih =>
    cases hrun with
    | cons hstep hrest =>
      obtain ⟨hunique, -, rfl⟩ := hstep
      exact ih (c := c.performCall (.attachTimer r)) (h.attachTimer hunique) hrest

/-- **One operation** in both runs. -/
theorem represents_performCall {c c' : CPU T H} {v : BusView T H} {l : ApiLabel T}
    (hpower : c.power = c'.power) (h : c.bus.Represents [] v) (h' : c'.bus.Represents [] v)
    (hl : l.Valid) (hunique : CallIdsUnique c l) (hunique' : CallIdsUnique c' l) :
    (c.performCall l).power = (c'.performCall l).power ∧
      ∃ w, (c.performCall l).bus.Represents [] w ∧ (c'.performCall l).bus.Represents [] w := by
  cases l with
  | step =>
    by_cases hon : c.power = .on
    · obtain ⟨hkept, hstep⟩ := h.step hon
      obtain ⟨hkept', hstep'⟩ := h'.step (hpower ▸ hon)
      exact ⟨hkept.trans (hpower.trans hkept'.symm), _, hstep, hstep'⟩
    · have hoff' : c'.power ≠ .on := hpower ▸ hon
      rw [CPU.performCall, CPU.performCall, CPU.step, if_pos hon, CPU.step, if_pos hoff']
      exact ⟨hpower, v, h, h'⟩
  | attachTimer r => exact ⟨hpower, _, h.attachTimer hunique, h'.attachTimer hunique'⟩
  | call r k =>
    have hid (id : UInt8) (hk : k = .op (.attachInterruptController id)) : id.toNat < 32 := by
      subst hk
      exact hl
    exact ⟨hpower, _, h.apiCall k hid hunique, h'.apiCall k hid hunique'⟩

theorem represents_of_run {c c' d d' : CPU T H} {v : BusView T H} {ls : List (ApiLabel T)}
    (hpower : c.power = c'.power) (h : c.bus.Represents [] v) (h' : c'.bus.Represents [] v)
    (hrun : ((apiLts T H).restrict CallIdsUnique).Run c ls d)
    (hrun' : ((apiLts T H).restrict CallIdsUnique).Run c' ls d') :
    ∃ w, d.bus.Represents [] w ∧ d'.bus.Represents [] w := by
  induction hrun generalizing c' v with
  | nil c =>
    cases hrun'
    exact ⟨v, h, h'⟩
  | cons hstep hrest ih =>
    cases hrun' with
    | cons hstep' hrest' =>
      obtain ⟨hunique, hl, rfl⟩ := hstep
      obtain ⟨hunique', -, rfl⟩ := hstep'
      obtain ⟨hpower, w, hw, hw'⟩ := represents_performCall hpower h h' hl hunique hunique'
      exact ih hpower hw hw' hrest'

/-- **The attach order does not matter** in runs whose operations get unique ids. -/
theorem sameRegisters_of_perm {c d d' e e' : CPU T H} {rs rs' : List T} {ls : List (ApiLabel T)}
    (hnew : Unattached c.bus) (hperm : rs.Perm rs')
    (hattach : ((apiLts T H).restrict CallIdsUnique).Run c (rs.map .attachTimer) d)
    (hattach' : ((apiLts T H).restrict CallIdsUnique).Run c (rs'.map .attachTimer) d')
    (hrun : ((apiLts T H).restrict CallIdsUnique).Run d ls e)
    (hrun' : ((apiLts T H).restrict CallIdsUnique).Run d' ls e') : SameRegisters e.bus e'.bus := by
  obtain ⟨hpower, hd⟩ := represents_of_attach hnew.represents hattach
  obtain ⟨hpower', hd'⟩ := represents_of_attach hnew.represents hattach'
  rw [← hperm.foldl_eq] at hd'
  obtain ⟨w, hw, hw'⟩ := represents_of_run (hpower.trans hpower'.symm) hd hd' hrun hrun'
  exact .of_represents hw hw'

/-- Two timers with compare value 1 that were started before they are attached. -/
def twoTimers : CPU Bool Unit where
  power := .on
  cycleCount := 0
  bus :=
    { clock := ⟨0⟩
      scheduler := .init
      interrupts := .init
      timers := []
      timer := fun _ => ⟨⟨0, 1⟩, ⟨0, 0⟩, ⟨0, 1⟩, ⟨0, 0⟩, false, 0, false, false, 0, 0⟩
      triggered := [] }

theorem twoTimers_unattached : Unattached twoTimers.bus :=
  ⟨rfl, rfl, fun _ => rfl, fun _ => by simp [twoTimers, Timer.line]⟩

/-- Both timers match in the first step, in whichever order they are attached. -/
theorem sameRegisters_twoTimers :
    let c := [ApiLabel.attachTimer false, .attachTimer true, .step].foldl CPU.performCall twoTimers
    let c' := [ApiLabel.attachTimer true, .attachTimer false, .step].foldl CPU.performCall twoTimers
    SameRegisters c.bus c'.bus ∧ ∀ r, (c.bus.timer r).hasMatch = true := by
  intro c c'
  have hattach (r u : Bool) (hr : CallIdsUnique twoTimers (.attachTimer r))
      (hu : CallIdsUnique (twoTimers.performCall (.attachTimer r)) (.attachTimer u)) :
      ((apiLts Bool Unit).restrict CallIdsUnique).Run twoTimers ([r, u].map .attachTimer)
        ((twoTimers.performCall (.attachTimer r)).performCall (.attachTimer u)) :=
    .cons ⟨hr, trivial, rfl⟩ (.single ⟨hu, trivial, rfl⟩)
  have hstep (d : CPU Bool Unit) :
      ((apiLts Bool Unit).restrict CallIdsUnique).Run d [.step] (d.performCall .step) :=
    .single ⟨trivial, trivial, rfl⟩
  exact ⟨sameRegisters_of_perm twoTimers_unattached (.swap true false [])
    (hattach false true (by decide) (by decide)) (hattach true false (by decide) (by decide))
    (hstep _) (hstep _), by decide⟩

/-- The bus when timer `true` has the event `e` and timer `false` the event `own`, which was
scheduled last. -/
def restarted (rs : List Bool) (e own : EventId) : CPU Bool Unit where
  power := .on
  cycleCount := 0
  bus :=
    { clock := ⟨0⟩
      scheduler := ⟨own + 1, [⟨e, 1, some true, "Timer Compare Match"⟩,
        ⟨own, 1, some false, "Timer Compare Match"⟩]⟩
      interrupts := .init
      timers := rs
      timer := fun r => ⟨⟨0, 1⟩, ⟨0, 0⟩, ⟨0, 1⟩, ⟨0, 0⟩, false, 0, true, true,
        if r then e else own, 0⟩
      triggered := [] }

/-- `start()` replaces the event of timer `false`. -/
theorem start_restarted {rs : List Bool} {e own : EventId} (h₀ : own ≠ 0) (he : e ≠ own) :
    (restarted rs e own).performCall (.call false (.op .start)) = restarted rs e (own + 1) := by
  let t : Timer := ⟨⟨0, 1⟩, ⟨0, 0⟩, ⟨0, 1⟩, ⟨0, 0⟩, false, 0, true, true, own, 0⟩
  have hcancel : t.cancelScheduledEvent (restarted rs e own).bus.scheduler =
      ({ t with scheduledEventId := 0 },
        ⟨own + 1, [⟨e, 1, some true, "Timer Compare Match"⟩]⟩) := by
    simp [Timer.cancelScheduledEvent, EventScheduler.cancel, restarted, t, h₀, he]
  have hsame : t.enabled.syncClock ⟨0⟩ = t := by
    simp [t, Timer.syncClock, Timer.enabled, Register.write, Register.read, ctrlEnableBit]
  have hwaiting : t.Waiting := by
    simp [t, Timer.Waiting, Timer.running, Timer.compare, Timer.counter, Register.read,
      ctrlEnableBit]
  have hcalled : t.start false ⟨0⟩ (restarted rs e own).bus.scheduler =
      ((restarted rs e (own + 1)).bus.timer false, (restarted rs e (own + 1)).bus.scheduler) := by
    rw [Timer.start, hsame, Timer.updateScheduledEvent, hcancel,
      scheduleMatch_of_waiting rfl rfl hwaiting]
    simp [restarted, Timer.matchEvent, Timer.compare, Timer.counter, Register.read, t]
  have htimers : Function.update (restarted rs e own).bus.timer false
      ((restarted rs e (own + 1)).bus.timer false) = (restarted rs e (own + 1)).bus.timer := by
    funext r
    cases r <;> rfl
  let c := restarted rs e own
  let called := t.start false ⟨0⟩ c.bus.scheduler
  show { c with bus := c.bus.setTimer false called.1 called.2 } = restarted rs e (own + 1)
  rw [show called = _ from hcalled, Board.setTimer, htimers]
  rfl

/-- The calls of `start()` until the ids wrap. -/
theorem run_restarted {rs : List Bool} {e : EventId} {k : ℕ} (he : e = 1 ∨ e = 2)
    (hk : k + 3 ≤ 2 ^ 64) :
    (apiLts Bool Unit).Run (restarted rs e 3) (.replicate k (.call false (.op .start)))
      (restarted rs e (3 + .ofNat k)) := by
  induction k with
  | zero => exact .nil _
  | succ k ih =>
    have hid (n : UInt64) (hn : n.toNat < 3) : 3 + UInt64.ofNat k ≠ n := by
      intro h
      have hmod : (3 + UInt64.ofNat k).toNat = n.toNat := congrArg UInt64.toNat h
      simp at hmod
      omega
    have hother : e ≠ 3 + UInt64.ofNat k := by
      rcases he with rfl | rfl
      · exact (hid 1 (by decide)).symm
      · exact (hid 2 (by decide)).symm
    have hnext : 3 + UInt64.ofNat (k + 1) = 3 + UInt64.ofNat k + 1 := by
      rw [UInt64.ofNat_add, UInt64.add_assoc]
      rfl
    rw [List.replicate_succ', hnext]
    exact (ih (by omega)).snoc ⟨trivial, (start_restarted (hid 0 (by decide)) hother).symm⟩

theorem start_attached (r : Bool) :
    ((twoTimers.performCall (.attachTimer r)).performCall (.attachTimer !r)).performCall
      (.call false (.op .start)) = restarted [r, !r] (if r then 1 else 2) 3 := by
  let c := ((twoTimers.performCall (.attachTimer r)).performCall (.attachTimer !r)).performCall
    (.call false (.op .start))
  let c' := restarted [r, !r] (if r then 1 else 2) 3
  have htimer : c.bus.timer = c'.bus.timer := by
    funext u
    cases r <;> cases u <;> rfl
  have hother : c = { c' with bus := { c'.bus with timer := c.bus.timer } } := by
    cases r <;> rfl
  show c = c'
  rw [hother, htimer]

/-- Both orders of attaching, and the calls of `start()` after which timer `false` has an event with
the id 0. -/
theorem run_attached (r : Bool) :
    ∃ d, (apiLts Bool Unit).Run twoTimers ([r, !r].map .attachTimer) d ∧
      (apiLts Bool Unit).Run d (.replicate (2 ^ 64 - 2) (.call false (.op .start)))
        (restarted [r, !r] (if r then 1 else 2) 0) := by
  refine ⟨(twoTimers.performCall (.attachTimer r)).performCall (.attachTimer !r),
    .cons ⟨trivial, rfl⟩ (.single ⟨trivial, rfl⟩), ?_⟩
  exact .cons ⟨trivial, (start_attached r).symm⟩
    (run_restarted (k := 2 ^ 64 - 3) (by cases r <;> simp) (by decide))

/-- When 2^64 ids have been handed out, a call on one timer cancels the event of the other, if that
was attached first. -/
theorem not_sameRegisters_of_perm : ¬ ∀ (c d d' e e' : CPU Bool Unit) (rs rs' : List Bool)
    (ls : List (ApiLabel Bool)), Unattached c.bus → rs.Perm rs' →
    (apiLts Bool Unit).Run c (rs.map .attachTimer) d →
    (apiLts Bool Unit).Run c (rs'.map .attachTimer) d' →
    (apiLts Bool Unit).Run d ls e → (apiLts Bool Unit).Run d' ls e' →
    SameRegisters e.bus e'.bus := by
  intro h
  obtain ⟨d, hattach, hstart⟩ := run_attached false
  obtain ⟨d', hattach', hstart'⟩ := run_attached true
  have hlast (c : CPU Bool Unit) : (apiLts Bool Unit).Run c
      [.call false (.op .start), .call false (.op .stop), .step]
      (((c.performCall (.call false (.op .start))).performCall
        (.call false (.op .stop))).performCall .step) :=
    .cons ⟨trivial, rfl⟩ (.cons ⟨trivial, rfl⟩ (.single ⟨trivial, rfl⟩))
  have hsame := h _ _ _ _ _ _ _ _ twoTimers_unattached (.swap true false []) hattach hattach'
    (hstart.append (hlast _)) (hstart'.append (hlast _))
  have hstatus := congrArg Register.read (congrFun (hsame.timer true) .status)
  exact absurd hstatus (by decide)

end Cpu

end EFS
