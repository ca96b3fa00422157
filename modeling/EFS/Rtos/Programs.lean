import EFS.Rtos.Delay

/-!
# Tasks that are programs

Here the functions of tasks are finite sequences of scheduler calls: `code f` is what the
callable `f` calls, in order.  A configuration of `programs code` is a scheduler with the stack of
executing task functions, each with the calls it has left.

`schedule()` executes a task inside the call that scheduled it, and leaves `m_currentTaskId` at
that task when its function returns.  A function that has calls left after it has handed the
processor over therefore makes them in the name of another task.  `actsOnCaller_of_reachable`
shows that this is the only way in which a call can miss its caller.
-/

namespace EFS

namespace Rtos

variable {Fn : Type}

/-- A scheduler and the stack of executing functions, each with the calls it has left. -/
abbrev ProgramConfig (Fn : Type) := Counted Fn × List (Execution Fn × List (Call Fn))

/-- The calls made by the function of an execution. -/
def body (code : Fn → List (Call Fn)) (x : Execution Fn) : List (Call Fn) :=
  match x.function with
  | .idleLoop => []
  | .user f => code f

/-- No task gets an id that is in use. -/
def MayStep (c : ProgramConfig Fn) (l : Option (Call Fn)) : Prop :=
  ∀ o ∈ Reentrant.calls c l, c.1.sched.FreshId o

instance (c : ProgramConfig Fn) (l : Option (Call Fn)) : Decidable (MayStep c l) :=
  match h : Reentrant.calls c l with
  | none => isTrue fun o ho => by rw [h] at ho; cases ho
  | some o => decidable_of_iff (c.1.sched.FreshId o)
    ⟨fun hw o' ho' => by rw [h] at ho'; cases ho'; exact hw, fun hw => hw o h⟩

/-- The scheduler with tasks whose functions are given by `code`. -/
def programs (code : Fn → List (Call Fn)) : LTS (ProgramConfig Fn) (Option (Call Fn)) :=
  (component Fn).progLts (body code) MayStep

/-- A new scheduler. -/
def programStart : ProgramConfig Fn := (⟨.init, 0⟩, [])

variable {code : Fn → List (Call Fn)} {c d : ProgramConfig Fn} {l : Option (Call Fn)}

/-- Where a call `o` leads from `s`, with the frames `gs` below it: the function of an execution
is put on the stack, or the stack stays as it is, or an exception has emptied it. -/
structure CallsTo (code : Fn → List (Call Fn)) (s : Counted Fn) (o : Call Fn)
    (gs : List (Execution Fn × List (Call Fn))) (d : ProgramConfig Fn) : Prop where
  state : d.1 = ⟨(s.sched.perform o).state, o.countCreated s.created⟩
  stack : (∃ x, (s.sched.perform o).frame? = some x ∧ d.2 = (x, body code x) :: gs) ∨
    (s.sched.perform o).frame? = none ∧ (d.2 = gs ∨ d.2 = [])

theorem callsTo_land (s : Counted Fn) (o : Call Fn) (gs : List (Execution Fn × List (Call Fn))) :
    CallsTo code s o gs ((component Fn).land (body code) gs ((component Fn).call s o)) := by
  have hfold : ∀ t : Counted Fn, gs.foldl (fun s g => (component Fn).unwind s g.1) t = t := by
    intro t
    induction gs with
    | nil => rfl
    | cons g gs ih => exact ih
  constructor
  · simp only [component]
    cases s.sched.perform o with
    | returned t => rfl
    | entered t x => rfl
    | threw t => exact hfold _
  · simp only [component]
    cases s.sched.perform o with
    | returned t => exact .inr ⟨rfl, .inl rfl⟩
    | entered t x => exact .inl ⟨x, rfl, rfl⟩
    | threw t => exact .inr ⟨rfl, .inr rfl⟩

/-- The three kinds of steps: a call at top level, a function that returns, and the next call of
the innermost function. -/
theorem programs_step {G : ProgramConfig Fn → Option (Call Fn) → Prop}
    (h : ((component Fn).progLts (body code) G).step c l d) :
    (∃ o, l = some o ∧ c.2 = [] ∧ CallsTo code c.1 o [] d) ∨
    (∃ x gs, l = none ∧ c.2 = (x, []) :: gs ∧ d = (c.1, gs)) ∨
    ∃ x o os gs, l = none ∧ c.2 = (x, o :: os) :: gs ∧ CallsTo code c.1 o ((x, os) :: gs) d := by
  obtain ⟨s, gs⟩ := c
  obtain ⟨-, hn⟩ := h
  match l, gs, hn with
  | some o, [], hn =>
    obtain rfl := Option.some.inj hn
    exact .inl ⟨o, rfl, rfl, callsTo_land s o []⟩
  | none, (x, []) :: gs, hn =>
    exact .inr (.inl ⟨x, gs, rfl, rfl, (Option.some.inj hn).symm⟩)
  | none, (x, o :: os) :: gs, hn =>
    obtain rfl := Option.some.inj hn
    exact .inr (.inr ⟨x, o, os, gs, rfl, rfl, callsTo_land s o _⟩)

theorem programs_state {G : ProgramConfig Fn → Option (Call Fn) → Prop}
    (h : ((component Fn).progLts (body code) G).step c l d) :
    (∃ o gs, Reentrant.calls c l = some o ∧ CallsTo code c.1 o gs d) ∨ d.1 = c.1 := by
  rcases programs_step h with ⟨o, rfl, -, hd⟩ | ⟨x, gs, rfl, -, rfl⟩ | ⟨x, o, os, gs, rfl, hs, hd⟩
  · exact .inl ⟨o, _, rfl, hd⟩
  · exact .inr rfl
  · exact .inl ⟨o, _, by rw [Reentrant.calls, hs], hd⟩

theorem settled_of_programs (h : (programs code).Reachable programStart c) :
    c.1.sched.Settled := by
  refine h.invariant (I := fun c => c.1.sched.Settled) Scheduler.settled_init ?_
  intro c l d hc hst
  rcases programs_state hst with ⟨o, gs, ho, hd⟩ | hd
  · rw [hd.state]
    exact hc.perform o (hst.1 o ho)
  · rwa [hd]

/-! ### Calls that hand the processor over -/

namespace Scheduler

/-- The operation may make another task the current one. -/
def HandsOver (s : Scheduler Fn) : Call Fn → Prop
  | .schedule => s.running = true
  | .yield => s.running = true
  | .delay _ => s.running = true ∧ s.currentTaskId ≠ idleTaskId
  | .suspendTask id => s.task? id ≠ none ∧ id = s.currentTaskId ∧ s.running = true
  | .deleteTask id => id ≠ idleTaskId ∧ s.task? id ≠ none ∧ s.currentTaskId = id
  | .reset => True
  | _ => False

instance (s : Scheduler Fn) : (o : Call Fn) → Decidable (s.HandsOver o)
  | .schedule | .yield => inferInstanceAs (Decidable (s.running = true))
  | .delay _ => inferInstanceAs (Decidable (s.running = true ∧ s.currentTaskId ≠ idleTaskId))
  | .suspendTask id =>
    inferInstanceAs (Decidable (s.task? id ≠ none ∧ id = s.currentTaskId ∧ s.running = true))
  | .deleteTask id =>
    inferInstanceAs (Decidable (id ≠ idleTaskId ∧ s.task? id ≠ none ∧ s.currentTaskId = id))
  | .reset => isTrue trivial
  | .createTask .. | .start | .stop | .tick | .resumeTask _ => isFalse id

/-- Every other operation keeps the current task and executes nothing. -/
theorem Settled.keeps_current {s : Scheduler Fn} (h : s.Settled) {o : Call Fn}
    (ho : ¬ s.HandsOver o) : (s.perform o).state.currentTaskId = s.currentTaskId ∧
      (s.perform o).frame? = none := by
  cases o with
  | createTask name function p n =>
    cases function with
    | none => exact ⟨rfl, rfl⟩
    | some f => simp [Scheduler.perform, Scheduler.createTask]
  | deleteTask id =>
    simp only [HandsOver, not_and] at ho
    simp only [Scheduler.perform, Scheduler.deleteTask]
    split_ifs with hi hn hc
    · exact ⟨rfl, rfl⟩
    · exact ⟨rfl, rfl⟩
    · exact absurd hc (ho hi hn)
    · simp [Scheduler.removeTask]
  | start => simp [Scheduler.perform, Scheduler.start, h.ensureIdleTask]
  | stop => exact ⟨rfl, rfl⟩
  | schedule =>
    simp only [HandsOver] at ho
    simp [Scheduler.perform, Scheduler.schedule, ho]
  | yield =>
    simp only [HandsOver] at ho
    simp [Scheduler.perform, Scheduler.yield, ho]
  | delay n =>
    have : ¬ s.running = true ∨ s.currentTaskId = idleTaskId := by
      simpa only [HandsOver, not_and_or, not_not] using ho
    simp only [Scheduler.perform, Scheduler.delay, this, ↓reduceIte, Outcome.state_returned,
      Outcome.frame?_returned, and_self]
  | tick => exact ⟨processDelayQueue_currentTaskId _, rfl⟩
  | suspendTask id =>
    simp only [HandsOver, not_and] at ho
    simp only [Scheduler.perform, Scheduler.suspendTask]
    split
    · exact ⟨rfl, rfl⟩
    · rename_i t ht
      -- another task is suspended, or the scheduler is stopped
      have hpark := h.toCoherent.parkTask ht
      rw [hpark.currentTaskId, hpark.counters.running,
        if_neg fun hc => ho (by simp [ht]) hc.1 hc.2]
      exact ⟨hpark.currentTaskId, rfl⟩
  | resumeTask id =>
    simp only [Scheduler.perform, Scheduler.resumeTask]
    split
    · exact ⟨rfl, rfl⟩
    · split_ifs <;> simp
  | reset => exact absurd trivial ho

end Scheduler

/-! ### Who a call acts on -/

/-- The call `delay(n)` in the state `s` is a delay of task `T`: it gets the deadline `n` ticks
from now and is blocked until then, and other tasks change only by being executed. -/
structure DelaysOnly (s : Scheduler Fn) (T : TaskId) (n : UInt64) : Prop where
  caller : ∃ t, (s.delay n).state.task? T = some t ∧ t.delayUntilTick = s.tickCount + n ∧
    (s.tickCount < s.tickCount + n → t.state = .blocked)
  others : ∀ i, i ≠ T → (s.delay n).state.task? i = s.task? i ∨
    i ∈ (s.delay n).frame?.map Execution.task ∧
      ∃ t, s.task? i = some t ∧ (s.delay n).state.task? i = some t.run

/-- The next call of the innermost function, if it has calls left, is made by the current task;
if it is a delay, it delays that task only, for as long as it says. -/
def ActsOnCaller (c : ProgramConfig Fn) : Prop :=
  ∀ x o os gs, c.2 = (x, o :: os) :: gs → c.1.sched.currentTaskId = x.task ∧
    ∀ n, o = .delay n → DelaysOnly c.1.sched x.task n ∧
      (c.1.sched.tickCount.toNat + n.toNat < 2 ^ 64 → DelayLaw (c.1, c.2.map Prod.fst) n)

/-- The next call of the innermost function hands the processor over only as its last one, and
is a delay only in a running scheduler. -/
def Orderly (c : ProgramConfig Fn) : Prop :=
  ∀ x o os gs, c.2 = (x, o :: os) :: gs → (c.1.sched.HandsOver o → os = []) ∧
    ∀ n, o = .delay n → c.1.sched.running = true

instance (o : Call Fn) (p : Prop) [Decidable p] : Decidable (∀ n, o = .delay n → p) :=
  match o with
  | .delay n => decidable_of_iff p ⟨fun hp _ _ => hp, fun h => h n rfl⟩
  | .createTask .. | .deleteTask _ | .start | .stop | .schedule | .yield | .tick
  | .suspendTask _ | .resumeTask _ | .reset => isTrue fun _ h => by cases h

instance (c : ProgramConfig Fn) : Decidable (Orderly c) :=
  match h : c.2 with
  | [] => isTrue fun _ _ _ _ hs => by rw [h] at hs; cases hs
  | (_, []) :: _ => isTrue fun _ _ _ _ hs => by rw [h] at hs; cases hs
  | (_, o :: os) :: _ =>
    decidable_of_iff ((c.1.sched.HandsOver o → os = []) ∧
        ∀ n, o = .delay n → c.1.sched.running = true)
      ⟨fun ho x o' os' gs hs => by rw [h] at hs; cases hs; exact ho, fun ho => ho _ _ _ _ h⟩

/-- The steps taken from orderly configurations. -/
def orderlyPrograms (code : Fn → List (Call Fn)) : LTS (ProgramConfig Fn) (Option (Call Fn)) :=
  (component Fn).progLts (body code) fun c l => MayStep c l ∧ Orderly c

/-- The stack of an orderly run: only the innermost function has calls left, it is that of the
current task, and the idle task has none. -/
structure Nested (c : ProgramConfig Fn) : Prop where
  settled : c.1.sched.Settled
  outer : ∀ g ∈ c.2.tail, g.2 = []
  innermost : ∀ g ∈ c.2.head?, g.2 ≠ [] → c.1.sched.currentTaskId = g.1.task ∧
    g.1.task ≠ idleTaskId

/-- A call keeps the stack nested if the frames `gs` below it have no calls left, or if it does not
hand over and is made by the current task. -/
theorem Nested.of_callsTo {s : Counted Fn} {o : Call Fn}
    {gs : List (Execution Fn × List (Call Fn))} (hs : s.sched.Settled)
    (hd : CallsTo code s o gs d) (ho : s.sched.FreshId o) (htail : ∀ g ∈ gs.tail, g.2 = [])
    (hhead : ∀ g ∈ gs.head?, g.2 ≠ [] → ¬ s.sched.HandsOver o ∧
      s.sched.currentTaskId = g.1.task ∧ g.1.task ≠ idleTaskId) : Nested d := by
  have hset : d.1.sched.Settled := by
    rw [hd.state]
    exact hs.perform o ho
  rcases hd.stack with ⟨x, hx, hstack⟩ | ⟨hx, hstack | hstack⟩
  · refine ⟨hset, ?_, ?_⟩ <;> rw [hstack]
    · intro g hg
      -- a call that enters a function hands over, so nothing is left to do below
      cases gs with
      | nil => cases hg
      | cons h hs' =>
        rcases List.mem_cons.1 hg with rfl | hg
        · by_contra hne
          have := (hs.keeps_current (hhead g rfl hne).1).2
          rw [hx] at this
          cases this
        · exact htail g hg
    · rintro g hg hne
      obtain rfl : (x, body code x) = g := by simpa using hg
      obtain ⟨-, -, -, hcur, t, ht, -, hf⟩ := hs.perform_entered hx
      rw [hd.state]
      refine ⟨hcur, fun hidle => hne ?_⟩
      change x.task = idleTaskId at hidle
      obtain ⟨u, hu, -, hui, -⟩ := (hs.perform o ho).idle
      rw [hidle, hu, Option.some.injEq] at ht
      rw [← ht, hui, Option.some.injEq] at hf
      simp [body, ← hf]
  · refine ⟨hset, ?_, ?_⟩ <;> rw [hstack]
    · exact htail
    · intro g hg hne
      obtain ⟨hnot, hcur, hidle⟩ := hhead g hg hne
      rw [hd.state]
      exact ⟨(hs.keeps_current hnot).1.trans hcur, hidle⟩
  · refine ⟨hset, ?_, ?_⟩ <;> rw [hstack]
    · intro g hg; cases hg
    · intro g hg; cases hg

/-- **Step lemma.**  Orderly steps keep the stack nested. -/
theorem Nested.step (hc : Nested c) (hst : (orderlyPrograms code).step c l d) : Nested d := by
  obtain ⟨hmay, hord⟩ := hst.1
  rcases programs_step hst with ⟨o, rfl, hnil, hd⟩ | ⟨x, gs, rfl, hs, rfl⟩ |
    ⟨x, o, os, gs, rfl, hs, hd⟩
  · exact .of_callsTo hc.settled hd (hmay o rfl) (by simp) (by simp)
  · refine ⟨hc.settled, fun g hg => hc.outer g ?_, fun g hg hne => absurd ?_ hne⟩
    · rw [hs]; exact List.mem_of_mem_tail hg
    · refine hc.outer g ?_
      rw [hs]; exact List.mem_of_mem_head? hg
  · have hcall : Reentrant.calls c none = some o := by
      rw [Reentrant.calls, hs]
    refine .of_callsTo hc.settled hd (hmay o hcall) ?_ ?_
    · have := hc.outer
      rw [hs] at this
      exact this
    · intro g hg hne
      obtain rfl : (x, os) = g := by simpa using hg
      obtain ⟨hcur, hidle⟩ := hc.innermost (x, o :: os) (by rw [hs]; rfl) (by simp)
      exact ⟨fun hh => hne ((hord x o os gs hs).1 hh), hcur, hidle⟩

theorem Nested.actsOnCaller (hc : Nested c) (ho : Orderly c) : ActsOnCaller c := by
  intro x o os gs hs
  obtain ⟨hcur, hidle⟩ := hc.innermost (x, o :: os) (by rw [hs]; rfl) (by simp)
  refine ⟨hcur, ?_⟩
  rintro n rfl
  have hrun := (ho x _ os gs hs).2 n rfl
  refine ⟨⟨?_, fun i hi => hc.settled.delay_other (hcur ▸ hi) n⟩, ?_⟩
  · obtain ⟨t, ht, hdl, hb, -⟩ := hc.settled.delay_current hrun (hcur ▸ hidle) n
    exact ⟨t, hcur ▸ ht, hdl, fun hlt => (hb hlt).1⟩
  · intro hlt
    exact Scheduler.Settled.delayLaw (c := (c.1, c.2.map Prod.fst)) hc.settled hrun
      (hcur ▸ hidle) hlt

/-- **Calls act on their caller.**  In every run whose configurations are orderly, the next call of
the innermost function acts on the task whose function it is. -/
theorem actsOnCaller_of_reachable (h : (orderlyPrograms code).Reachable programStart c)
    (hc : Orderly c) : ActsOnCaller c := by
  have hstart : Nested (programStart : ProgramConfig Fn) :=
    ⟨Scheduler.settled_init, by simp [programStart], by simp [programStart]⟩
  exact (h.invariant hstart fun _ _ _ hn hst => hn.step hst).actsOnCaller hc

/-- A task that lets a tick pass and delays itself. -/
def tickThenDelay : Unit → List (Call Unit) := fun _ => [.tick, .delay 3]

theorem actsOnCaller_tickThenDelay :
    ∃ c, (orderlyPrograms tickThenDelay).Reachable programStart c ∧ c.2 ≠ [] ∧
      ActsOnCaller c := by
  have hrun : ((component Unit).progAfter (body tickThenDelay)
      (fun c l => MayStep c l ∧ Orderly c) programStart
      [some (.createTask "a" (some ()) 1 1024), some .start, some .schedule, none]).any
        (fun c => c.2.length = 1 ∧ Orderly c) = true := by decide
  obtain ⟨c, hc, hcur⟩ := (Option.any_eq_true ..).1 hrun
  obtain ⟨hlen, ho⟩ := of_decide_eq_true hcur
  have hr : (orderlyPrograms tickThenDelay).Reachable programStart c :=
    ⟨_, Reentrant.run_of_progAfter _ hc⟩
  exact ⟨c, hr, fun h => by simp [h] at hlen, actsOnCaller_of_reachable hr ho⟩

/-- A task that makes two delays. -/
def twoDelays : Unit → List (Call Unit) := fun _ => [.delay 1, .delay 2]

/-- The first delay executes the idle task and leaves it current: the second delay is not made by
the task whose function is executing. -/
theorem not_actsOnCaller_twoDelays : ∃ c, (programs twoDelays).Reachable programStart c ∧
    ¬ ActsOnCaller c := by
  have hrun : ((component Unit).progAfter (body twoDelays) MayStep programStart
      [some (.createTask "a" (some ()) 1 1024), some .start, some .schedule, none, none]).any
        (fun c => c.2.head?.any fun g => g.2 ≠ [] ∧ c.1.sched.currentTaskId ≠ g.1.task) =
        true := by decide
  obtain ⟨c, hc, hhead⟩ := (Option.any_eq_true ..).1 hrun
  obtain ⟨⟨x, os⟩, hx, hg⟩ := (Option.any_eq_true ..).1 hhead
  obtain ⟨hos, hcur⟩ := of_decide_eq_true hg
  obtain ⟨gs, hs⟩ := List.head?_eq_some_iff.1 hx
  obtain ⟨o, os, rfl⟩ := List.exists_cons_of_ne_nil hos
  exact ⟨c, ⟨_, Reentrant.run_of_progAfter _ hc⟩, fun h => hcur (h x o os gs hs).1⟩

end Rtos

end EFS
