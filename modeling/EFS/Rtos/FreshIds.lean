import EFS.LTS.Histories
import EFS.Rtos.Delay
import Mathlib.Data.Nat.ModEq

/-!
# Fresh task ids

`createTask` hands out the values of a 32-bit counter, one after the other.  It asks neither whether
a task has the id already nor whether it is the id of the idle task.

* `createsFresh_iff_unlapped` : throughout a run new tasks get ids of their own iff the counter
  never comes round to the id of a task that still exists (`Unlapped`).
* `not_createsFresh_wrapped` : it comes round to the idle task, which exists for ever.

Unlike in `machine`, any number of tasks may be created.
-/

namespace EFS

namespace Rtos

variable {Fn : Type}

/-- A task that is created gets a non-zero id that no task has, and the others stay as they are. -/
def Scheduler.CreatesFresh (s : Scheduler Fn) : Prop :=
  ∀ name f priority stackSize, ∃ id s',
    s.createTask name (some f) priority stackSize = .ok (id, s') ∧ id ≠ 0 ∧ s.task? id = none ∧
      s'.taskCount = s.taskCount + 1 ∧
      ∀ i, s'.task? i = if i = id then some (.new id name (some f) priority stackSize)
        else s.task? i

/-- A scheduler, and which of the tasks created since the last reset got each id last.  The idle
task counts as number 0, and so does an id that nobody has got. -/
structure Dated (Fn : Type) extends Counted Fn where
  birth : TaskId → ℕ

namespace Dated

variable (d : Dated Fn)

/-- The birth dates after a call. -/
def births : Call Fn → TaskId → ℕ
  | .createTask _ (some _) _ _ => Function.update d.birth d.sched.nextTaskId (d.created + 1)
  | .reset => fun _ => 0
  | _ => d.birth

/-- No task exists that was created a multiple of `2 ^ 32` tasks before the next one. -/
def Unlapped : Prop :=
  ∀ i t, d.sched.task? i = some t → ¬ d.created + 1 ≡ d.birth i [MOD 2 ^ 32]

/-- Ids are the numbers of their tasks, in 32 bits. -/
structure InOrder : Prop where
  settled : d.sched.Settled
  next : d.sched.nextTaskId = .ofNat (d.created + 1)
  born : ∀ i t, d.sched.task? i = some t → i = .ofNat (d.birth i)

end Dated

/-- The scheduler as a component, with the dates of its tasks. -/
def datedComponent (Fn : Type) : Reentrant (Dated Fn) (Call Fn) (Execution Fn) where
  call d o := (d.sched.perform o).map fun s => ⟨⟨s, o.countCreated d.created⟩, d.births o⟩
  resume d _ := .returned d
  unwind d _ := d

/-- The scheduler with arbitrary code around it, and no limit on the number of tasks. -/
def unlimitedMachine (Fn : Type) : LTS (Dated Fn × List (Execution Fn)) (Label Fn) :=
  (datedComponent Fn).lts fun _ _ => True

/-- A new scheduler, with nothing running. -/
def datedStart : Dated Fn × List (Execution Fn) := (⟨⟨.init, 0⟩, fun _ => 0⟩, [])

/-! ### One creation -/

theorem ofNat_eq_ofNat_iff (m n : ℕ) : UInt32.ofNat m = .ofNat n ↔ m ≡ n [MOD 2 ^ 32] := by
  rw [← UInt32.toNat_inj, UInt32.toNat_ofNat', UInt32.toNat_ofNat']
  rfl

theorem ofNat_add_one (n : ℕ) : UInt32.ofNat n + 1 = .ofNat (n + 1) := (UInt32.ofNat_add n 1).symm

/-- The next id is fresh iff it is unused, since the idle task has the id 0. -/
theorem Scheduler.Settled.createsFresh_iff {s : Scheduler Fn} (h : s.Settled) :
    s.CreatesFresh ↔ s.task? s.nextTaskId = none := by
  constructor
  · intro hfresh
    obtain ⟨id, s', hcreate, -, hnone, -⟩ := hfresh "" .idleLoop 0 0
    obtain ⟨rfl, -⟩ := Prod.mk.inj (Except.ok.inj hcreate)
    exact hnone
  · intro hnone name f priority stackSize
    have hcreate : s.createTask name (some f) priority stackSize = .ok (s.nextTaskId, _) := rfl
    obtain ⟨-, -, -, htasks⟩ := h.createTask hnone hcreate
    refine ⟨s.nextTaskId, _, hcreate, ?_, hnone, ?_, htasks⟩
    · intro hzero
      obtain ⟨t, ht, -⟩ := h.idle
      rw [hzero] at hnone
      cases ht.symm.trans hnone
    · have hnot : s.nextTaskId ∉ s.tasks := by
        rw [← AList.lookup_eq_none]
        cases hlookup : s.tasks.lookup s.nextTaskId with
        | none => rfl
        | some p =>
          cases p with
          | none => exact absurd hlookup (h.nonnull _)
          | some t =>
            rw [Scheduler.task?, hlookup] at hnone
            cases hnone
      rw [Scheduler.taskCount, Scheduler.addToReadyQueue_tasks]
      exact congrArg List.length (AList.entries_insert_of_notMem hnot)

namespace Dated

variable {d : Dated Fn}

theorem InOrder.createsFresh_iff (h : d.InOrder) : d.sched.CreatesFresh ↔ d.Unlapped := by
  rw [h.settled.createsFresh_iff]
  constructor
  · intro hnone i t ht hlapped
    have hi : d.sched.nextTaskId = i := by
      rw [h.next, h.born i t ht]
      exact (ofNat_eq_ofNat_iff _ _).2 hlapped
    rw [hi, ht] at hnone
    cases hnone
  · intro hunlapped
    refine Option.eq_none_iff_forall_ne_some.2 ?_
    intro t ht
    refine hunlapped _ t ht ((ofNat_eq_ofNat_iff _ _).1 ?_)
    rw [← h.next]
    exact h.born _ t ht

/-! ### Runs -/

theorem inOrder_start : (datedStart : Dated Fn × _).1.InOrder := by
  refine ⟨Scheduler.settled_init, rfl, ?_⟩
  intro i t ht
  change (Scheduler.init : Scheduler Fn).task? i = _ at ht
  rw [Scheduler.task?_init] at ht
  split_ifs at ht with hi
  exact hi

theorem births_of_exists {o : Call Fn} (hreset : o ≠ .reset) (hfresh : d.sched.FreshId o)
    {i : TaskId} {t : Task Fn} (ht : d.sched.task? i = some t) : d.births o i = d.birth i := by
  cases o with
  | createTask name f priority stackSize =>
    cases f with
    | none => rfl
    | some f =>
      refine Function.update_of_ne ?_ _ _
      rintro rfl
      cases ht.symm.trans hfresh
  | reset => exact absurd rfl hreset
  | _ => rfl

/-- **Step lemma.**  Ids stay in order when a new task gets a fresh one. -/
theorem InOrder.call (h : d.InOrder) (hcreates : d.sched.CreatesFresh) (o : Call Fn) :
    ((datedComponent Fn).call d o).state.InOrder := by
  have hfresh : d.sched.FreshId o := by
    cases o with
    | createTask name f priority stackSize =>
      cases f with
      | none => trivial
      | some f => exact h.settled.createsFresh_iff.1 hcreates
    | _ => trivial
  by_cases hreset : o = .reset
  · subst hreset
    exact inOrder_start
  rw [datedComponent, Outcome.state_map]
  -- the next id counts the creations, and each task was there before or got the next id
  refine ⟨h.settled.perform o hfresh, ?_, ?_⟩
  · refine (h.settled.perform_counters o).1.trans ?_
    cases o with
    | createTask name f priority stackSize =>
      cases f with
      | none => exact h.next
      | some f =>
        change d.sched.nextTaskId + 1 = .ofNat (d.created + 1 + 1)
        rw [h.next, ofNat_add_one]
    | reset => exact absurd rfl hreset
    | _ => exact h.next
  · intro i t ht
    have horigin := h.settled.perform_origin o ht
    generalize t.signature = signature at horigin
    cases horigin with
    | kept u hu =>
      change i = .ofNat (d.births o i)
      rw [births_of_exists hreset hfresh hu]
      exact h.born i u hu
    | created name f priority stackSize ho hi =>
      subst ho hi
      have hbirth : d.births (.createTask name (some f) priority stackSize) d.sched.nextTaskId =
          d.created + 1 := Function.update_self ..
      exact h.next.trans (congrArg UInt32.ofNat hbirth.symm)
    | idle ho => exact absurd ho hreset

end Dated

/-- **Fresh ids.**  Throughout a run each new task gets an id of its own iff the counter never comes
round to the id of a task that still exists. -/
theorem createsFresh_iff_unlapped (ls : List (Label Fn)) :
    (unlimitedMachine Fn).Throughout (fun c => c.1.sched.CreatesFresh) datedStart ls ↔
      (unlimitedMachine Fn).Throughout (fun c => c.1.Unlapped) datedStart ls := by
  refine LTS.throughout_congr (I := fun c => c.1.InOrder) Dated.inOrder_start
    (fun c hc => hc.createsFresh_iff) ?_
  rintro _ _ _ hc hcreates ⟨hstep, -⟩
  cases hstep with
  | call d fs o => exact hc.call hcreates o
  | ret d f fs => exact hc
  | throw d f fs => exact hc

/-! ### Around the counter -/

/-- The task with this number is created and deleted. -/
def createAndDelete (k : ℕ) : List (Label Unit) :=
  [.call (.createTask "t" (some ()) 1 1024) none, .call (.deleteTask (.ofNat k)) none]

theorem Scheduler.deleteTask_of_stopped {s : Scheduler Fn} (h : s.running = false) (id : TaskId) :
    (s.deleteTask id).2.frame? = none ∧ (s.deleteTask id).2.state.running = false ∧
      (s.deleteTask id).2.state.nextTaskId = s.nextTaskId := by
  unfold Scheduler.deleteTask
  split_ifs <;> simp [Scheduler.schedule, Scheduler.removeTask, h]

/-- Each task moves the counter on, although it is deleted. -/
theorem run_createAndDelete (n : ℕ) : ∃ d : Dated Unit,
    (unlimitedMachine Unit).Run datedStart ((List.range n).flatMap fun k => createAndDelete (k + 1))
      (d, []) ∧ d.sched.running = false ∧ d.sched.nextTaskId = .ofNat (n + 1) := by
  induction n with
  | zero => exact ⟨_, .nil _, rfl, rfl⟩
  | succ n ih =>
    obtain ⟨d, hrun, hstopped, hnext⟩ := ih
    let created := ((datedComponent Unit).call d (.createTask "t" (some ()) 1 1024)).state
    have hrunning : created.sched.running = false :=
      (Scheduler.addToReadyQueue_running ..).trans hstopped
    have hid : created.sched.nextTaskId = .ofNat (n + 1 + 1) := by
      refine (Scheduler.addToReadyQueue_nextTaskId ..).trans ?_
      change d.sched.nextTaskId + 1 = _
      rw [hnext, ofNat_add_one]
    let deleted := ((datedComponent Unit).call created (.deleteTask (.ofNat (n + 1)))).state
    have hdeleted : deleted.sched = (created.sched.deleteTask (.ofNat (n + 1))).2.state :=
      congrArg (fun d : Dated Unit => d.sched) (Outcome.state_map ..)
    obtain ⟨hframe, hstopped', hnext'⟩ :=
      Scheduler.deleteTask_of_stopped hrunning (.ofNat (n + 1))
    rw [← hdeleted] at hstopped' hnext'
    have hcreate : (unlimitedMachine Unit).step (d, [])
        (.call (.createTask "t" (some ()) 1 1024) none) (created, []) :=
      Reentrant.lts_call_of_frame?_eq_none trivial rfl
    have hdelete : (unlimitedMachine Unit).step (created, [])
        (.call (.deleteTask (.ofNat (n + 1))) none) (deleted, []) :=
      Reentrant.lts_call_of_frame?_eq_none trivial ((Outcome.frame?_map ..).trans hframe)
    refine ⟨deleted, ?_, hstopped', hnext'.trans hid⟩
    rw [List.range_succ, List.flatMap_append, List.flatMap_singleton]
    exact hrun.append (.cons hcreate (.single hdelete))

/-- After `2 ^ 32 - 1` tasks, all of them deleted, the next one gets the id of the idle task. -/
theorem not_createsFresh_wrapped :
    ¬ (unlimitedMachine Unit).Throughout (fun c => c.1.sched.CreatesFresh) datedStart
      ((List.range (2 ^ 32 - 1)).flatMap fun k => createAndDelete (k + 1)) := by
  intro h
  obtain ⟨d, hrun, -, hnext⟩ := run_createAndDelete (2 ^ 32 - 1)
  obtain ⟨id, s', hcreate, hne, -⟩ :=
    h _ _ (List.prefix_refl _) hrun "t" (.user ()) 1 1024
  obtain ⟨rfl, -⟩ := Prod.mk.inj (Except.ok.inj hcreate)
  exact hne (hnext.trans rfl)

end Rtos

end EFS
