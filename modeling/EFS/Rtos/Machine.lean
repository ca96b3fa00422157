import EFS.Rtos.Effects

/-!
# The scheduler under arbitrary use

`machine` is the scheduler driven from outside: any operation may be called at any time, at top
level or inside the function of a task, in any nesting.  The only restriction is that fewer than
`2 ^ 32 - 1` tasks are created between two resets, because ids are 32-bit numbers; to speak
about it the state carries the number of tasks created.  In `freshMachine` any number of tasks may
be created, as long as none of them gets an id that is in use.

`invariant_of_reachable` is the invariant of all runs, and `wellQueued_of_reachable` spells out
what it says about the containers of the scheduler.
-/

namespace EFS

namespace Rtos

variable {Fn : Type}

/-- A scheduler, and how many tasks have been created in it since the last reset. -/
structure Counted (Fn : Type) where
  sched : Scheduler Fn
  created : ℕ

/-- The scheduler as a re-entrant component.  Nothing is left to do in it when the function of a
task returns or throws. -/
def component (Fn : Type) : Reentrant (Counted Fn) (Call Fn) (Execution Fn) where
  call c o := (c.sched.perform o).map fun s => ⟨s, o.countCreated c.created⟩
  resume c _ := .returned c
  unwind c _ := c

/-- Fewer than `2 ^ 32 - 1` tasks are created between two resets. -/
def WithinLimit (c : Counted Fn) (o : Call Fn) : Prop := o.countCreated c.created < 2 ^ 32 - 1

instance (c : Counted Fn) (o : Call Fn) : Decidable (WithinLimit c o) :=
  inferInstanceAs (Decidable (_ < _))

/-- The scheduler with arbitrary code around it. -/
def machine (Fn : Type) : LTS (Counted Fn × List (Execution Fn))
    (Reentrant.Label (Call Fn) (Execution Fn)) :=
  (component Fn).lts WithinLimit

/-- A new scheduler. -/
def start : Counted Fn × List (Execution Fn) := (⟨.init, 0⟩, [])

/-- The invariant of all runs. -/
structure Invariant (c : Counted Fn) : Prop where
  settled : c.sched.Settled
  numbered : c.sched.Numbered c.created

theorem Invariant.call {c : Counted Fn} (h : Invariant c) {o : Call Fn} (ho : WithinLimit c o) :
    Invariant ((component Fn).call c o).state := by
  rw [component, Outcome.state_map]
  exact ⟨h.settled.perform o (h.numbered.freshId o), h.numbered.perform h.settled o ho⟩

/-- **Run lemma.**  The invariant holds at every operation boundary. -/
theorem invariant_of_reachable {c : Counted Fn × List (Execution Fn)}
    (h : (machine Fn).Reachable start c) : Invariant c.1 :=
  Reentrant.invariant h ⟨Scheduler.settled_init, Scheduler.numbered_init⟩
    (fun _ _ ho hc => hc.call ho) (fun _ _ hc => hc) (fun _ _ hc => hc)

theorem component_step {G : Counted Fn → Call Fn → Prop} {c d : Counted Fn × List (Execution Fn)}
    {l : Reentrant.Label (Call Fn) (Execution Fn)} (h : ((component Fn).lts G).step c l d) :
    (∃ o, l = .call o (c.1.sched.perform o).frame? ∧ G c.1 o ∧
      d.1 = ⟨(c.1.sched.perform o).state, o.countCreated c.1.created⟩) ∨
    (∀ o e, l ≠ .call o e) ∧ l.entered = none ∧ d.1 = c.1 := by
  obtain ⟨hst, hG⟩ := h
  cases hst with
  | call s fs o => exact .inl ⟨o, by simp [component], hG _ _ rfl, by simp [component]⟩
  | ret s f fs => exact .inr ⟨by simp, rfl, rfl⟩
  | throw s f fs => exact .inr ⟨by simp, rfl, rfl⟩

theorem machine_step {c d : Counted Fn × List (Execution Fn)}
    {l : Reentrant.Label (Call Fn) (Execution Fn)} (h : (machine Fn).step c l d) :
    (∃ o, l = .call o (c.1.sched.perform o).frame? ∧ WithinLimit c.1 o ∧
      d.1 = ⟨(c.1.sched.perform o).state, o.countCreated c.1.created⟩) ∨
    (∀ o e, l ≠ .call o e) ∧ l.entered = none ∧ d.1 = c.1 :=
  component_step h

/-- Without a limit on the number of tasks, the scheduler is settled as long as no task gets an
id that is in use. -/
theorem settled_of_reachable {G : Counted Fn → Call Fn → Prop}
    (hG : ∀ c o, G c o → c.sched.FreshId o) {c : Counted Fn × List (Execution Fn)}
    (h : ((component Fn).lts G).Reachable start c) : c.1.sched.Settled := by
  refine Reentrant.invariant (I := fun c => c.sched.Settled) h Scheduler.settled_init
    ?_ (fun _ _ hc => hc) (fun _ _ hc => hc)
  intro c o ho hc
  rw [component, Outcome.state_map]
  exact hc.perform o (hG c o ho)

/-! ### Ids that are not in use -/

/-- The scheduler with arbitrary code around it, in which no task gets an id that is in use. -/
def freshMachine (Fn : Type) : LTS (Counted Fn × List (Execution Fn))
    (Reentrant.Label (Call Fn) (Execution Fn)) :=
  (component Fn).lts fun c o => c.sched.FreshId o

theorem settled_of_fresh {c : Counted Fn × List (Execution Fn)}
    (h : (freshMachine Fn).Reachable start c) : c.1.sched.Settled :=
  settled_of_reachable (fun _ _ h => h) h

theorem settled_step {c d : Counted Fn × List (Execution Fn)}
    {l : Reentrant.Label (Call Fn) (Execution Fn)} (hc : c.1.sched.Settled)
    (h : (freshMachine Fn).step c l d) : d.1.sched.Settled := by
  rcases component_step h with ⟨o, -, ho, hd⟩ | ⟨-, -, hd⟩
  · rw [hd]
    exact hc.perform o ho
  · rwa [hd]

/-! ### What the invariant says about the containers -/

namespace Scheduler

/-- All ids in the ready queue, in the order in which the vectors are visited. -/
def readyIds (s : Scheduler Fn) : List TaskId := s.readyQueue.entries.flatMap Prod.snd

/-- The containers of the scheduler fit together. -/
structure WellQueued (s : Scheduler Fn) : Prop where
  idle_exists : ∃ t, s.task? idleTaskId = some t
  current_exists : ∃ t, s.task? s.currentTaskId = some t
  ready_exist : ∀ id ∈ s.readyIds, id ∈ s.tasks
  delay_exist : ∀ id ∈ s.delayQueue, id ∈ s.tasks
  /-- An id occurs at most once in the whole ready queue. -/
  ready_once : ∀ id, s.readyIds.count id ≤ 1
  /-- An id in the ready queue is in the vector of its task's priority. -/
  ready_priority : ∀ e ∈ s.readyQueue.entries, ∀ id ∈ e.2,
    ∃ t, s.task? id = some t ∧ t.priority = e.1
  vec_nonempty : ∀ e ∈ s.readyQueue.entries, e.2 ≠ []
  ready_iff : ∀ id t, s.task? id = some t →
    (id ∈ s.readyIds ↔ t.state = .ready ∨ t.state = .running)
  delay_iff : ∀ id t, s.task? id = some t →
    (s.delayQueue.count id = 1 ↔ t.state = .blocked) ∧ s.delayQueue.count id ≤ 1
  suspended_iff : ∀ id t, s.task? id = some t →
    (id ∉ s.readyIds ∧ id ∉ s.delayQueue ↔ t.state = .suspended)
  /-- At most one task is running, the current one. -/
  running_current : ∀ id t, s.task? id = some t → t.state = .running → id = s.currentTaskId

variable {s : Scheduler Fn}

theorem QueuesCoherent.mem_readyIds (h : s.QueuesCoherent) {id : TaskId} :
    id ∈ s.readyIds ↔ ∃ t, s.task? id = some t ∧ t.Runnable := by
  simp only [readyIds, List.mem_flatMap, Prod.exists]
  constructor
  · rintro ⟨p, vec, he, hm⟩
    have hv : s.readyVec p = vec := by rw [readyVec, OrderedMap.mem_entries_iff.1 he]; rfl
    obtain ⟨t, ht, -, hr⟩ := (h.mem_ready id p).1 (hv ▸ hm)
    exact ⟨t, ht, hr⟩
  · rintro ⟨t, ht, hr⟩
    have hm := (h.mem_ready id t.priority).2 ⟨t, ht, rfl, hr⟩
    cases hv : s.readyQueue.find? t.priority with
    | none => simp [readyVec, hv] at hm
    | some vec =>
      exact ⟨t.priority, vec, OrderedMap.mem_entries_iff.2 hv, by simpa [readyVec, hv] using hm⟩

theorem QueuesCoherent.nodup_readyIds (h : s.QueuesCoherent) : s.readyIds.Nodup := by
  have hvec : ∀ e ∈ s.readyQueue.entries, s.readyVec e.1 = e.2 := fun e he => by
    rw [readyVec, OrderedMap.mem_entries_iff.1 he]; rfl
  refine List.nodup_flatMap.2 ⟨fun e he => hvec e he ▸ h.ready_nodup e.1, ?_⟩
  refine s.readyQueue.sorted.imp_of_mem fun {a b} ha hb hlt id hia hib => ?_
  obtain ⟨t, ht, hp, -⟩ := (h.mem_ready id a.1).1 (hvec a ha ▸ hia)
  obtain ⟨u, hu, hq, -⟩ := (h.mem_ready id b.1).1 (hvec b hb ▸ hib)
  obtain rfl : t = u := Option.some.inj (ht.symm.trans hu)
  rw [← hp, ← hq] at hlt
  exact UInt8.lt_irrefl _ hlt

theorem Coherent.wellQueued (h : s.Coherent) : s.WellQueued where
  idle_exists := by
    obtain ⟨t, ht, -⟩ := h.idle
    exact ⟨t, ht⟩
  current_exists := h.current
  ready_exist id hm := by
    obtain ⟨t, ht, -⟩ := h.mem_readyIds.1 hm
    exact s.mem_tasks_of_task? ht
  delay_exist id hm := by
    obtain ⟨t, ht, -⟩ := (h.mem_delay id).1 hm
    exact s.mem_tasks_of_task? ht
  ready_once id := List.nodup_iff_count_le_one.1 h.nodup_readyIds id
  ready_priority e he id hm := by
    have hv : s.readyVec e.1 = e.2 := by rw [readyVec, OrderedMap.mem_entries_iff.1 he]; rfl
    obtain ⟨t, ht, hp, -⟩ := (h.mem_ready id e.1).1 (hv ▸ hm)
    exact ⟨t, ht, hp⟩
  vec_nonempty e he hn := h.noEmptyVec e.1 (hn ▸ OrderedMap.mem_entries_iff.1 he)
  ready_iff id t ht := by
    rw [h.mem_readyIds, ht]
    simp [Task.Runnable]
  delay_iff id t ht := by
    refine ⟨?_, List.nodup_iff_count_le_one.1 h.delay_nodup id⟩
    have hmem : s.delayQueue.count id = 1 ↔ id ∈ s.delayQueue :=
      ⟨fun hc => List.count_pos_iff.1 (by omega), List.count_eq_one_of_mem h.delay_nodup⟩
    rw [hmem, h.mem_delay, ht]
    simp
  suspended_iff id t ht := by
    obtain ⟨-, -, hte⟩ := h.task_ok id t ht
    rw [h.mem_readyIds, h.mem_delay, ht]
    cases hst : t.state <;> simp_all [Task.Runnable]
  running_current := h.running_current

end Scheduler

/-- **Queue coherence.**  At every operation boundary of every run, at top level or inside the
function of a task, the containers of the scheduler fit together. -/
theorem wellQueued_of_reachable {c : Counted Fn × List (Execution Fn)}
    (h : (machine Fn).Reachable start c) : c.1.sched.WellQueued :=
  (invariant_of_reachable h).settled.wellQueued

/-- A scheduler with two tasks, one of which runs while the other is delayed. -/
def exampleCalls : List (Call Unit) :=
  [.createTask "a" (some ()) 2 1024, .createTask "b" (some ()) 1 1024, .start, .schedule, .delay 5]

theorem wellQueued_of_reachable_example :
    ((component Unit).after start exampleCalls).1.sched.WellQueued :=
  wellQueued_of_reachable (Reentrant.reachable_after (by decide))

end Rtos

end EFS
