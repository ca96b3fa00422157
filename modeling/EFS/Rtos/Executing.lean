import EFS.Rtos.Programs

/-!
# Executing tasks

A task is executing while its function is on the stack.  Nothing keeps a function from deleting
its own task, or one further down the stack, or from resetting the scheduler: the task is then
destroyed while its function goes on (`not_executing_exists`).

Only `deleteTask` and `reset` take tasks out of `m_tasks` (`perform_keeps`).  A call that `Spares`
the executing tasks therefore destroys none of them, and if all calls do, every executing task
exists in every state of every run (`executing_exists`).
-/

namespace EFS

namespace Rtos

variable {Fn : Type}

namespace Scheduler

/-- Every task of `s` is still there in `s'`, unless its id is in `except`. -/
def Keeps (except : Set TaskId) (s s' : Scheduler Fn) : Prop :=
  ∀ i, i ∉ except → (s.task? i).isSome → (s'.task? i).isSome

variable {s s' : Scheduler Fn} {except : Set TaskId}

theorem Keeps.of_eq (h : s'.tasks = s.tasks) : Keeps except s s' := by
  intro i _ hi
  rwa [task?, h]

theorem Keeps.trans {u : Scheduler Fn} (h : Keeps except s s') (h' : Keeps except s' u) :
    Keeps except s u :=
  fun i hne hi => h' i hne (h i hne hi)

theorem keeps_setTask (id : TaskId) (t : Task Fn) : Keeps except s (s.setTask id t) := by
  intro i _ hi
  rw [task?_setTask]
  split_ifs
  · rfl
  · exact hi

theorem Keeps.write {id : TaskId} {t : Task Fn} (h : s'.tasks = (s.setTask id t).tasks) :
    Keeps except s s' :=
  (keeps_setTask id t).trans (.of_eq h)

theorem keeps_wake (ids : List TaskId) (s : Scheduler Fn) : Keeps except s (s.wake ids).1 := by
  induction ids generalizing s with
  | nil => exact .of_eq rfl
  | cons id rest ih =>
    by_cases he : s.Expired id
    · obtain ⟨t, ht, hle⟩ := he
      rw [wake_cons_of_expired ht hle]
      exact (Keeps.write (addToReadyQueue_tasks ..)).trans (ih _)
    · rw [wake_cons_of_not_expired he]
      exact ih s

theorem keeps_pickNextTask : Keeps except s s.pickNextTask.1 := by
  unfold pickNextTask
  split
  · split_ifs <;> exact .of_eq rfl
  · exact .of_eq rfl

theorem keeps_preempt (nextId : TaskId) : Keeps except s (s.preempt nextId) := by
  unfold preempt
  split_ifs
  · split
    · split_ifs
      · exact keeps_setTask _ _
      · exact .of_eq rfl
    · exact .of_eq rfl
  · exact .of_eq rfl

theorem subscript_task? (id i : TaskId) : (s.subscript id).task? i = s.task? i := by
  unfold subscript
  split_ifs with h
  · rfl
  · rcases eq_or_ne i id with rfl | hne
    · have : s.tasks.lookup i = none := AList.lookup_eq_none.2 h
      simp [task?, this]
    · simp [task?, AList.lookup_insert_ne hne]

/-- The task that `dispatch` executes exists afterwards. -/
theorem dispatch_spec (except : Set TaskId) (s : Scheduler Fn) (id : TaskId) :
    Keeps except s (s.dispatch id).state ∧
    ∀ x, (s.dispatch id).frame? = some x → ((s.dispatch id).state.task? x.task).isSome := by
  have hsub : Keeps except s (s.subscript id) := fun i _ hi => by rwa [subscript_task?]
  unfold dispatch
  split
  · split_ifs
    · dsimp only
      split
      · refine ⟨hsub.trans (keeps_setTask id _), ?_⟩
        intro x hx
        obtain rfl := Option.some.inj hx
        simp
      · exact ⟨hsub.trans (keeps_setTask id _), fun x hx => by cases hx⟩
    · exact ⟨hsub, fun x hx => by cases hx⟩
  · exact ⟨hsub, fun x hx => by cases hx⟩

theorem keeps_processDelayQueue : Keeps except s s.processDelayQueue :=
  (keeps_wake s.delayQueue s).trans (.of_eq rfl)

theorem schedule_spec (except : Set TaskId) (s : Scheduler Fn) :
    Keeps except s s.schedule.state ∧
    ∀ x, s.schedule.frame? = some x → (s.schedule.state.task? x.task).isSome := by
  unfold schedule
  split_ifs
  · set picked := s.processDelayQueue.pickNextTask
    have hpre : Keeps except s (picked.1.preempt picked.2) :=
      (keeps_processDelayQueue.trans keeps_pickNextTask).trans (keeps_preempt _)
    have hcur : Keeps except (picked.1.preempt picked.2)
        { picked.1.preempt picked.2 with currentTaskId := picked.2 } := .of_eq rfl
    obtain ⟨hd, hx⟩ := dispatch_spec except
      { picked.1.preempt picked.2 with currentTaskId := picked.2 } picked.2
    exact ⟨(hpre.trans hcur).trans hd, hx⟩
  · exact ⟨.of_eq rfl, fun x hx => by cases hx⟩

theorem Keeps.schedule (h : Keeps except s s') : Keeps except s s'.schedule.state ∧
    ∀ x, s'.schedule.frame? = some x → (s'.schedule.state.task? x.task).isSome :=
  ⟨h.trans (schedule_spec except s').1, (schedule_spec except s').2⟩

theorem Keeps.returned (h : Keeps except s s') :
    Keeps except s (Outcome.returned s' : Outcome (Scheduler Fn) (Execution Fn)).state ∧
    ∀ x, (Outcome.returned s' : Outcome (Scheduler Fn) (Execution Fn)).frame? = some x →
      (s'.task? x.task).isSome :=
  ⟨h, fun x hx => by cases hx⟩

end Scheduler

/-- The operation takes the task `i` out of `m_tasks`, if it is there. -/
def Call.Removes (i : TaskId) : Call Fn → Prop
  | .deleteTask id => i = id ∧ id ≠ idleTaskId
  | .reset => True
  | _ => False

instance (i : TaskId) : DecidablePred (Call.Removes i : Call Fn → Prop)
  | .deleteTask _ => inferInstanceAs (Decidable (_ ∧ _))
  | .reset => isTrue trivial
  | .createTask _ _ _ _ | .start | .stop | .schedule | .yield | .delay _ | .tick | .suspendTask _
  | .resumeTask _ => isFalse id

namespace Scheduler

variable {s : Scheduler Fn} {except : Set TaskId}

theorem keeps_requeueCurrent : Keeps except s s.requeueCurrent := by
  unfold requeueCurrent
  split_ifs
  · split
    · split_ifs
      · exact .write ((addToReadyQueue_tasks ..).trans (removeFromReadyQueue_tasks ..))
      · exact .of_eq rfl
    · exact .of_eq rfl
  · exact .of_eq rfl

theorem keeps_blockCurrent (n : UInt64) : Keeps except s (s.blockCurrent n) := by
  unfold blockCurrent
  split
  · exact .write (removeFromReadyQueue_tasks ..)
  · exact .of_eq rfl

theorem keeps_parkTask (id : TaskId) (t : Task Fn) : Keeps except s (s.parkTask id t) :=
  .write (removeFromReadyQueue_tasks ..)

theorem keeps_removeTask (id : TaskId) (cur : TaskId) :
    Keeps { i | i = id } s { s.removeTask id with currentTaskId := cur } := by
  intro i hne hi
  change ((s.removeTask id).task? i).isSome
  rw [removeTask_task?, if_neg (show i ≠ id from hne)]
  exact hi

theorem keeps_ensureIdleTask : Keeps except s s.ensureIdleTask := by
  unfold ensureIdleTask
  split_ifs
  · exact .of_eq rfl
  · exact .write (addToReadyQueue_tasks ..)

/-- **Frame rule.**  An operation keeps all tasks but those it removes, and the task it executes
exists. -/
theorem perform_keeps (s : Scheduler Fn) (o : Call Fn) :
    Keeps { i | o.Removes i } s (s.perform o).state ∧
      ∀ x, (s.perform o).frame? = some x → ((s.perform o).state.task? x.task).isSome := by
  cases o with
  | createTask name function p n =>
    cases function with
    | none => exact ⟨.of_eq rfl, fun x hx => by cases hx⟩
    | some f =>
      exact Keeps.returned (.write (addToReadyQueue_tasks ..))
  | deleteTask id =>
    simp only [perform, deleteTask]
    split_ifs with hidle hn hcur
    · exact Keeps.returned (.of_eq rfl)
    · exact Keeps.returned (.of_eq rfl)
    · refine Keeps.schedule fun i hne hi => keeps_removeTask id _ i ?_ hi
      exact fun h => hne ⟨h, hidle⟩
    · refine Keeps.returned fun i hne hi =>
        keeps_removeTask id (s.removeTask id).currentTaskId i ?_ hi
      exact fun h => hne ⟨h, hidle⟩
  | start => exact Keeps.returned (keeps_ensureIdleTask.trans (.of_eq rfl))
  | stop => exact Keeps.returned (.of_eq rfl)
  | schedule => exact schedule_spec _ s
  | yield =>
    simp only [perform, yield]
    split_ifs
    · exact keeps_requeueCurrent.schedule
    · exact Keeps.returned (.of_eq rfl)
  | delay n =>
    simp only [perform, delay]
    split_ifs
    · exact Keeps.returned (.of_eq rfl)
    · exact (keeps_blockCurrent n).schedule
  | tick =>
    have hcount : Keeps { i | Call.Removes i (.tick : Call Fn) } s
        { s with tickCount := s.tickCount + 1 } := .of_eq rfl
    exact Keeps.returned (hcount.trans keeps_processDelayQueue)
  | suspendTask id =>
    simp only [perform, suspendTask]
    split
    · exact Keeps.returned (.of_eq rfl)
    · split_ifs
      · exact (keeps_parkTask id _).schedule
      · exact Keeps.returned (keeps_parkTask id _)
  | resumeTask id =>
    refine Keeps.returned ?_
    unfold resumeTask
    split
    · exact .of_eq rfl
    · split_ifs
      · exact .write (addToReadyQueue_tasks ..)
      · exact .of_eq rfl
  | reset => exact ⟨fun i hne => absurd trivial hne, fun x hx => by cases hx⟩

end Scheduler

/-! ### Runs -/

/-- The call takes no executing task out of `m_tasks`. -/
def Spares (c : ProgramConfig Fn) (o : Call Fn) : Prop :=
  ∀ g ∈ c.2, ¬ o.Removes g.1.task

/-- The calls of the step, if it makes one, spare the executing tasks. -/
def SparingStep (c : ProgramConfig Fn) (l : Option (Call Fn)) : Prop :=
  ∀ o ∈ Reentrant.calls c l, Spares c o

/-- The scheduler with tasks whose functions are given by `code`, and calls that spare the
executing tasks. -/
def sparingPrograms (code : Fn → List (Call Fn)) : LTS (ProgramConfig Fn) (Option (Call Fn)) :=
  (component Fn).progLts (body code) SparingStep

/-- **Executing tasks exist.**  In every state of every run whose calls spare the executing tasks,
`m_tasks` holds every task whose function is on the stack. -/
theorem executing_exists {code : Fn → List (Call Fn)} {c : ProgramConfig Fn}
    (h : (sparingPrograms code).Reachable programStart c) :
    ∀ g ∈ c.2, (c.1.sched.task? g.1.task).isSome := by
  refine h.invariant (I := fun c => ∀ g ∈ c.2, (c.1.sched.task? g.1.task).isSome)
    (by rintro g hg; cases hg) ?_
  rintro c l d hc hst
  -- a call keeps the tasks whose functions are executing, and enters that of a task that exists
  have hcalls : ∀ {o gs}, Reentrant.calls c l = some o → CallsTo code c.1 o gs d →
      (∀ g ∈ gs, ∃ g' ∈ c.2, g'.1 = g.1) → ∀ g ∈ d.2, (d.1.sched.task? g.1.task).isSome := by
    intro o gs ho hto hgs g hg
    obtain ⟨hkeep, hx⟩ := c.1.sched.perform_keeps o
    have hold : ∀ g ∈ gs, (d.1.sched.task? g.1.task).isSome := by
      intro g hg
      obtain ⟨g', hg', he⟩ := hgs g hg
      rw [hto.state, ← he]
      exact hkeep _ (hst.1 o ho g' hg') (hc g' hg')
    rcases hto.stack with ⟨x, hfr, hd⟩ | ⟨-, hd | hd⟩
    · rw [hd] at hg
      rcases List.mem_cons.1 hg with rfl | hg
      · rw [hto.state]
        exact hx x hfr
      · exact hold g hg
    · exact hold g (hd ▸ hg)
    · rw [hd] at hg
      cases hg
  -- a call from outside, the end of a function, or a call of the innermost one
  rcases programs_step hst with ⟨o, rfl, hs, hd⟩ | ⟨x, gs, -, hs, rfl⟩ |
      ⟨x, o, os, gs, rfl, hs, hd⟩
  · exact hcalls rfl hd (by rintro g hg; cases hg)
  · exact fun g hg => hc g (hs ▸ List.mem_cons_of_mem _ hg)
  · refine hcalls (by rw [Reentrant.calls, hs]) hd ?_
    intro g hg
    rw [hs]
    rcases List.mem_cons.1 hg with rfl | hg
    · exact ⟨_, List.mem_cons_self, rfl⟩
    · exact ⟨g, List.mem_cons_of_mem _ hg, rfl⟩

instance (c : ProgramConfig Fn) : DecidablePred (SparingStep c) := fun l =>
  decidable_of_iff (∀ o ∈ (Reentrant.calls c l).toList, ∀ g ∈ c.2, ¬ o.Removes g.1.task)
    (by simp [SparingStep, Spares])

/-- A task that creates a second one, executes it, and deletes it when its function has
returned. -/
def creatorCode : Bool → List (Call Bool)
  | true => [.createTask "b" (some false) 2 1024, .schedule, .deleteTask 2]
  | false => [.tick]

theorem executing_exists_creator : ∃ c, (sparingPrograms creatorCode).Reachable programStart c ∧
    c.2.length = 2 ∧ ∀ g ∈ c.2, (c.1.sched.task? g.1.task).isSome := by
  have hrun : ((component Bool).progAfter (body creatorCode) SparingStep programStart
      [some (.createTask "a" (some true) 1 1024), some .start, some .schedule, none, none]).any
        (fun c => c.2.length = 2) = true := by decide
  obtain ⟨c, hc, hlen⟩ := (Option.any_eq_true ..).1 hrun
  have hr : (sparingPrograms creatorCode).Reachable programStart c :=
    ⟨_, Reentrant.run_of_progAfter _ hc⟩
  exact ⟨c, hr, of_decide_eq_true hlen, executing_exists hr⟩

/-- A function that deletes its own task. -/
def deletingCode : Unit → List (Call Unit) := fun _ => [.deleteTask 1]

/-- The function is still on the stack, below that of the idle task. -/
theorem not_executing_exists : ∃ c, (programs deletingCode).Reachable programStart c ∧
    ∃ g ∈ c.2, c.1.sched.task? g.1.task = none := by
  have hrun : ((component Unit).progAfter (body deletingCode) MayStep programStart
      [some (.createTask "a" (some ()) 1 1024), some .start, some .schedule, none]).any
        (fun c => c.2.any fun g => (c.1.sched.task? g.1.task).isNone) = true := by decide
  obtain ⟨c, hc, hany⟩ := (Option.any_eq_true ..).1 hrun
  obtain ⟨g, hg, hnone⟩ := List.any_eq_true.1 hany
  exact ⟨c, ⟨_, Reentrant.run_of_progAfter _ hc⟩, g, hg, Option.isNone_iff_eq_none.1 hnone⟩

end Rtos

end EFS
