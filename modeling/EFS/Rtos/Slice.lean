import EFS.Data.Turns
import EFS.Rtos.Programs
import EFS.Rtos.Refinement

/-!
# When a scheduling slice ends

The functions of tasks are sequences of `yield()` and `delay(n)` calls.  Each of these calls
schedules again before it returns, so that one `schedule()` may execute many functions, one inside
the other: the tasks that can be executed take nested turns.

* `returns_iff_ends` : `schedule()` returns iff these turns end.
* `slice_returns` : it returns in every state that settles, and in no other if functions only yield
  after their first call.
-/

namespace EFS

namespace Rtos

variable {Fn : Type} {code : Fn → List (Call Fn)}

/-- What a call of a slice does with the turn of its task, at the tick `tick`. -/
def handover (tick : UInt64) : Call Fn → Handover
  | .delay n => if tick < tick + n then .leave else .rejoin
  | _ => .pass

/-- A call that the functions of tasks make in a slice. -/
def SliceCall (o : Call Fn) : Prop := o = .yield ∨ ∃ n, o = .delay n

/-- The functions make only `yield` and `delay` calls. -/
def StraightLine (code : Fn → List (Call Fn)) : Prop := ∀ f, ∀ o ∈ code f, SliceCall o

namespace Roster

variable {a b : Roster Fn} {l : List TaskId} {id : TaskId} {tick : UInt64}

/-- The calls that the function of a task makes. -/
def callsOf (code : Fn → List (Call Fn)) (a : Roster Fn) (id : TaskId) : List (Call Fn) :=
  match a.profile id with
  | none => []
  | some p => body code ⟨id, p.function⟩

/-- The turns that the tasks take. -/
def turns (code : Fn → List (Call Fn)) (a : Roster Fn) : Turns TaskId UInt8 where
  rank := a.rank
  calls id := if id = idleTaskId then [] else (a.callsOf code id).map (handover a.tickCount)
  idle := idleTaskId
  calls_idle := if_pos rfl

/-- The tasks, their functions and priorities, and the tick are the same. -/
structure Like (a b : Roster Fn) : Prop where
  running : b.running = a.running
  profile : b.profile = a.profile
  tickCount : b.tickCount = a.tickCount

theorem Like.rank (h : a.Like b) : b.rank = a.rank := by
  funext id
  rw [Roster.rank, Roster.rank, h.profile]

theorem Like.turns (h : a.Like b) : b.turns code = a.turns code := by
  unfold Roster.turns callsOf
  simp only [h.rank, h.profile, h.tickCount]

/-- The outcome of giving a turn to the first one of the line `l`. -/
inductive Gives (a : Roster Fn) : List TaskId → Outcome (Roster Fn) (Execution Fn) → Prop
  | nobody {b : Roster Fn} (hlike : a.Like b) (hline : b.line = [])
    (hcurrent : b.currentTaskId = idleTaskId) : Gives a [] (.returned b)
  | somebody {b : Roster Fn} {id : TaskId} {rest : List TaskId} {p : Profile Fn} (hlike : a.Like b)
    (hp : a.profile id = some p) (hline : b.line = joinLine a.rank id rest)
    (hcurrent : b.currentTaskId = id) : Gives a (id :: rest) (.entered b ⟨id, p.function⟩)

/-- What a slice relies on. -/
structure InSlice (a : Roster Fn) : Prop where
  running : a.running = true
  line : IsLine a.rank a.line
  nodup : a.line.Nodup
  known : ∀ id ∈ a.line, (a.profile id).isSome
  asleep : ∀ e ∈ a.sleepers, ¬ e.2 ≤ a.tickCount

theorem InSlice.of_like (h : a.InSlice) (hlike : a.Like b) (hline : b.line = a.line)
    (hsleepers : b.sleepers = a.sleepers) : b.InSlice :=
  ⟨hlike.running.trans h.running, hlike.rank ▸ hline ▸ h.line, hline ▸ h.nodup,
    hline ▸ hlike.profile ▸ h.known, hsleepers ▸ hlike.tickCount ▸ h.asleep⟩

/-- A scheduling decision gives a turn in the line that there is after waking. -/
theorem gives_schedule (hlike : a.Like b) (hrunning : b.running = true)
    (hknown : ∀ id ∈ b.wake.line, (a.profile id).isSome) : a.Gives b.wake.line b.schedule := by
  rw [schedule, if_pos hrunning]
  split
  · rename_i hnil
    rw [hnil]
    exact .nobody ⟨hlike.running, hlike.profile, hlike.tickCount⟩ hnil rfl
  · rename_i id rest hcons
    rw [hcons] at hknown ⊢
    obtain ⟨p, hp⟩ := Option.isSome_iff_exists.1 (hknown id List.mem_cons_self)
    rw [hlike.profile, hp]
    exact .somebody ⟨hlike.running, hlike.profile, hlike.tickCount⟩ hp (by rw [hlike.rank]) rfl

theorem InSlice.wake_line (h : a.InSlice) : a.wake.line = a.line := by
  have hnil : (a.sleepers.filter fun e => e.2 ≤ a.tickCount) = [] :=
    List.filter_eq_nil_iff.2 fun e he => by simpa using h.asleep e he
  rw [wake, hnil]
  rfl

theorem InSlice.schedule (h : a.InSlice) : a.Gives a.line (a.perform .schedule) := by
  have hgives := gives_schedule ⟨rfl, rfl, rfl⟩ h.running (by rw [h.wake_line]; exact h.known)
  rwa [h.wake_line] at hgives

theorem InSlice.yield (h : a.InSlice) (hcurrent : a.currentTaskId = idleTaskId ∨
    joinLine a.rank a.currentTaskId (a.line.erase a.currentTaskId) = a.line) :
    a.Gives a.line (a.perform .yield) := by
  have hback : a.Like a.stepBack ∧ a.stepBack.line = a.line ∧ a.stepBack.sleepers = a.sleepers := by
    rw [stepBack]
    split_ifs with hback
    · exact ⟨⟨rfl, rfl, rfl⟩, hcurrent.resolve_left hback.2, rfl⟩
    · exact ⟨⟨rfl, rfl, rfl⟩, rfl, rfl⟩
  obtain ⟨hlike, hline, hsleepers⟩ := hback
  have hslice := h.of_like hlike hline hsleepers
  have hwake := hslice.wake_line.trans hline
  rw [perform, if_pos h.running, ← hwake]
  exact gives_schedule hlike hslice.running fun id hid => h.known id (hwake ▸ hid)

/-- A delay to a later tick takes the current task out of the line. -/
theorem InSlice.delay {rest : List TaskId} (h : a.InSlice)
    (hline : a.line = joinLine a.rank a.currentTaskId rest) (hcurrent : a.currentTaskId ∉ rest)
    (hidle : a.currentTaskId ≠ idleTaskId) (n : UInt64) :
    a.Gives (if handover a.tickCount (.delay n : Call Fn) = .leave then rest else a.line)
      (a.perform (.delay n)) := by
  have herase : a.line.erase a.currentTaskId = rest := by
    rw [hline, erase_joinLine hcurrent]
  have hasleep : ((a.sleepers.filter fun e => e.1 ≠ a.currentTaskId).filter
      fun e => e.2 ≤ a.tickCount) = [] :=
    List.filter_eq_nil_iff.2 fun e he => by simpa using h.asleep e (List.mem_of_mem_filter he)
  have hwake : (a.sleep n).wake.line =
      if handover a.tickCount (.delay n : Call Fn) = .leave then rest else a.line := by
    simp only [wake, sleep, dismiss, List.filter_append, hasleep, herase, handover,
      List.nil_append, List.filter_cons, List.filter_nil]
    by_cases hlt : a.tickCount < a.tickCount + n
    · simp [hlt, UInt64.not_le.2 hlt]
    · simp only [hlt, UInt64.not_lt.1 hlt]
      exact hline.symm
  rw [← hwake, perform, if_pos ⟨h.running, hidle⟩]
  refine gives_schedule ⟨rfl, rfl, rfl⟩ h.running fun id hid => h.known id ?_
  rw [hwake] at hid
  split_ifs at hid
  · rw [hline]
    exact mem_joinLine.2 (.inr hid)
  · exact hid

end Roster

theorem Scheduler.Settled.inSlice {s : Scheduler Fn} (h : s.Settled) (hs : s.running = true) :
    s.roster.InSlice := by
  refine ⟨hs, h.ranked.isLine, h.nodup_readyIds, fun id hid => ?_, fun e he => ?_⟩
  · obtain ⟨t, ht, -⟩ := h.mem_readyIds.1 hid
    obtain ⟨f, hf⟩ := Option.ne_none_iff_exists'.1 (h.task_ok id t ht).2.1
    simp [ht, Task.profile, hf]
  · obtain ⟨id, hid, rfl⟩ := List.mem_map.1 he
    obtain ⟨t, ht, hb⟩ := (h.mem_delay id).1 hid
    have hlater := h.delay_future id t ht hb
    simpa [Scheduler.deadline, ht] using hlater

/-! ### Turns of the scheduler -/

/-- The calls that are still to be made. -/
def pending (c : ProgramConfig Fn) : List (Call Fn) := c.2.flatMap Prod.snd

/-- A turn has just been given in the line `l`, while the calls `ks` were still to be made. -/
structure Given (code : Fn → List (Call Fn)) (t : Turns TaskId UInt8) (l : List TaskId)
    (ks : List Handover) (c : ProgramConfig Fn) : Prop where
  settled : c.1.sched.Settled
  running : c.1.sched.running = true
  turns : c.1.sched.roster.turns code = t
  slice : ∀ id, ∀ o ∈ c.1.sched.roster.callsOf code id, SliceCall o
  pending_slice : ∀ o ∈ pending c, SliceCall o
  pending_eq : (pending c).map (handover c.1.sched.tickCount) =
    (l.head?.map t.calls).getD [] ++ ks
  given : (l = [] ∧ c.1.sched.readyIds = [] ∧ c.1.sched.currentTaskId = idleTaskId) ∨
    ∃ rest, l = c.1.sched.currentTaskId :: rest ∧ c.1.sched.currentTaskId ∉ rest ∧
      c.1.sched.readyIds = joinLine t.rank c.1.sched.currentTaskId rest

theorem Scheduler.QueuesCoherent.calls_eq {s : Scheduler Fn} (h : s.QueuesCoherent) (id : TaskId) :
    (s.roster.turns code).calls id = (s.roster.callsOf code id).map (handover s.tickCount) := by
  by_cases hid : id = idleTaskId
  · obtain ⟨t, ht, -, hf, -⟩ := h.idle
    have hnil : s.roster.callsOf code idleTaskId = [] := by
      simp [Roster.callsOf, ht, Task.profile, hf, body]
    rw [hid, hnil]
    exact (s.roster.turns code).calls_idle
  · exact if_neg hid

/-- **Calls give turns.**  A call that gives a turn in the line `l`, made above the functions `gs`
in which calls are still to be made. -/
theorem given_land {s : Counted Fn} {o : Call Fn} {l : List TaskId}
    {gs : List (Execution Fn × List (Call Fn))} (hs : s.sched.Settled)
    (hrunning : s.sched.running = true)
    (hslice : ∀ id, ∀ o ∈ s.sched.roster.callsOf code id, SliceCall o)
    (ho : o = .schedule ∨ SliceCall o)
    (hgives : s.sched.roster.Gives l (s.sched.roster.perform o)) (hnodup : l.Nodup)
    (hgs : ∀ o ∈ gs.flatMap Prod.snd, SliceCall o) :
    Given code (s.sched.roster.turns code) l
      ((gs.flatMap Prod.snd).map (handover s.sched.tickCount))
      ((component Fn).land (body code) gs ((component Fn).call s o)) := by
  have hfresh : s.sched.FreshId o := by
    rcases ho with rfl | rfl | ⟨n, rfl⟩ <;> trivial
  have hsettled := hs.perform o hfresh
  have hperform := hs.roster_perform o hfresh
  have hcall : (component Fn).call s o =
      (s.sched.perform o).map fun s' => Counted.mk s' (o.countCreated s.created) := rfl
  -- profiles stay as they are, so tasks keep their functions
  have hsame {s' : Scheduler Fn} (hlike : s.sched.roster.Like s'.roster) (id : TaskId) :
      s'.roster.callsOf code id = s.sched.roster.callsOf code id := by
    rw [Roster.callsOf, Roster.callsOf, hlike.profile]
  rw [← hperform] at hgives
  rw [hcall]
  cases hp : s.sched.perform o with
  | threw s' =>
    rw [hp] at hgives
    cases hgives
  | returned s' =>
    rw [hp] at hgives hsettled
    cases hgives with
    | nobody hlike hline hcurrent =>
      refine ⟨hsettled, hlike.running.trans hrunning, hlike.turns, fun id o ho => ?_, hgs, ?_,
        .inl ⟨rfl, hline, hcurrent⟩⟩
      · exact hslice id o (hsame hlike id ▸ ho)
      · exact congrArg (fun tick => (gs.flatMap Prod.snd).map (handover tick)) hlike.tickCount
  | entered s' x =>
    rw [hp] at hgives hsettled
    cases hgives with
    | @somebody _ id rest p hlike hprofile hline hcurrent =>
      -- the function that is entered is that of the task whose turn it is
      have hbody : body code ⟨id, p.function⟩ = s.sched.roster.callsOf code id := by
        rw [Roster.callsOf, hprofile]
      refine ⟨hsettled, hlike.running.trans hrunning, hlike.turns, fun id o ho => ?_,
        fun o ho => ?_, ?_, .inr ⟨rest, ?_, ?_, ?_⟩⟩
      · exact hslice id o (hsame hlike id ▸ ho)
      · rcases List.mem_append.1 ho with ho | ho
        · exact hslice id o (hbody ▸ ho)
        · exact hgs o ho
      · have htick : s'.tickCount = s.sched.tickCount := hlike.tickCount
        show ((body code ⟨id, p.function⟩) ++ gs.flatMap Prod.snd).map (handover s'.tickCount) = _
        rw [htick, hbody, List.map_append]
        exact congrArg (· ++ _) (hs.calls_eq id).symm
      · exact congrArg (· :: rest) hcurrent.symm
      · have hnot := (List.nodup_cons.1 hnodup).1
        rwa [← hcurrent] at hnot
      · rw [← hcurrent] at hline
        exact hline

/-- Steps of the executing functions. -/
abbrev Steps (code : Fn → List (Call Fn)) : ProgramConfig Fn → ProgramConfig Fn → Prop :=
  Relation.ReflTransGen fun c d => (component Fn).next (body code) c = some d

/-- The calls that are left when those that do nothing have been made. -/
def effectiveCalls (s : Scheduler Fn) (os : List (Call Fn)) : List (Call Fn) :=
  if s.currentTaskId = idleTaskId then os.dropWhile fun o => handover s.tickCount o ≠ .pass else os

theorem effectiveCalls_suffix (s : Scheduler Fn) (os : List (Call Fn)) :
    effectiveCalls s os <:+ os := by
  rw [effectiveCalls]
  split_ifs
  · exact List.dropWhile_suffix _
  · exact List.suffix_rfl

/-- In the turn of the idle task the first call that does something passes the turn on. -/
theorem pass_of_effectiveCalls {s : Scheduler Fn} (hidle : s.currentTaskId = idleTaskId)
    {o : Call Fn} {os os' : List (Call Fn)} (h : effectiveCalls s os = o :: os') :
    handover s.tickCount o = .pass := by
  rw [effectiveCalls, if_pos hidle] at h
  have hhead := List.head?_dropWhile_not (fun o => handover s.tickCount o ≠ .pass) os
  rw [h] at hhead
  simpa using hhead

theorem SliceCall.eq_yield {o : Call Fn} {tick : UInt64} (ho : SliceCall o)
    (hpass : handover tick o = .pass) : o = .yield := by
  refine ho.resolve_right ?_
  rintro ⟨n, rfl⟩
  rw [handover] at hpass
  split_ifs at hpass

/-- Functions that are done return, and the idle task is not delayed. -/
theorem steps_effective {s : Counted Fn} (gs : List (Execution Fn × List (Call Fn)))
    (hgs : ∀ o ∈ gs.flatMap Prod.snd, SliceCall o) :
    (effectiveCalls s.sched (gs.flatMap Prod.snd) = [] → Steps code (s, gs) (s, [])) ∧
    ∀ o os, effectiveCalls s.sched (gs.flatMap Prod.snd) = o :: os → ∃ f os' gs',
      Steps code (s, gs) (s, (f, o :: os') :: gs') ∧ os' ++ gs'.flatMap Prod.snd = os := by
  induction gs with
  | nil =>
    refine ⟨fun _ => .refl, fun o os h => ?_⟩
    rw [effectiveCalls] at h
    split_ifs at h
    · cases h
    · cases h
  | cons g gs ih =>
    obtain ⟨f, os⟩ := g
    induction os with
    | nil =>
      have hstep : (component Fn).next (body code) (s, (f, []) :: gs) = some (s, gs) := rfl
      obtain ⟨hdone, hcall⟩ := ih hgs
      refine ⟨fun h => .head hstep (hdone h), fun o os h => ?_⟩
      obtain ⟨f', os', gs', hsteps, hos⟩ := hcall o os h
      exact ⟨f', os', gs', .head hstep hsteps, hos⟩
    | cons o os ihos =>
      have hrest := ihos fun o' ho' => hgs o' (List.mem_cons_of_mem _ ho')
      have hcons : ((f, o :: os) :: gs).flatMap Prod.snd = o :: ((f, os) :: gs).flatMap Prod.snd :=
        rfl
      -- the idle task is current, and the next call is a delay: it returns at once
      by_cases hskip : s.sched.currentTaskId = idleTaskId ∧ handover s.sched.tickCount o ≠ .pass
      · obtain ⟨hidle, hpass⟩ := hskip
        have heff : effectiveCalls s.sched (((f, o :: os) :: gs).flatMap Prod.snd) =
            effectiveCalls s.sched (((f, os) :: gs).flatMap Prod.snd) := by
          rw [effectiveCalls, effectiveCalls, if_pos hidle, if_pos hidle, hcons,
            List.dropWhile_cons_of_pos (by simpa using hpass)]
        -- the only other call of a slice passes the turn on
        obtain ⟨n, rfl⟩ : ∃ n, o = .delay n := by
          refine (hgs o (by rw [hcons]; exact List.mem_cons_self)).resolve_left ?_
          rintro rfl
          exact hpass rfl
        have hreturned : (component Fn).call s (.delay n) = .returned s := by
          have hdelay : s.sched.perform (.delay n) = .returned s.sched := by
            simp [Scheduler.perform, Scheduler.delay, hidle]
          exact congrArg (Outcome.map fun s' => Counted.mk s' s.created) hdelay
        have hstep : (component Fn).next (body code) (s, (f, .delay n :: os) :: gs) =
            some (s, (f, os) :: gs) := by rw [Reentrant.next, hreturned]; rfl
        rw [heff]
        refine ⟨fun h => .head hstep (hrest.1 h), fun o' os' h => ?_⟩
        obtain ⟨f', ms, gs', hsteps, hms⟩ := hrest.2 o' os' h
        exact ⟨f', ms, gs', .head hstep hsteps, hms⟩
      · have heff : effectiveCalls s.sched (((f, o :: os) :: gs).flatMap Prod.snd) =
            o :: ((f, os) :: gs).flatMap Prod.snd := by
          rw [effectiveCalls, hcons]
          split_ifs with hidle
          · exact List.dropWhile_cons_of_neg (by simpa using fun h => hskip ⟨hidle, h⟩)
          · rfl
        rw [heff]
        refine ⟨fun h => (List.cons_ne_nil _ _ h).elim, fun o' os' h => ?_⟩
        obtain ⟨rfl, rfl⟩ := List.cons.inj h
        exact ⟨f, os, gs, .refl, rfl⟩

namespace Given

variable {t : Turns TaskId UInt8} {l : List TaskId} {ks : List Handover} {c : ProgramConfig Fn}

/-- The next call that does something gives a turn in the line `l'`. -/
theorem call (h : Given code t l ks c) {o : Call Fn} {os : List (Call Fn)} {l' : List TaskId}
    (heff : effectiveCalls c.1.sched (pending c) = o :: os)
    (hgives : SliceCall o → c.1.sched.roster.Gives l' (c.1.sched.roster.perform o))
    (hnodup : l'.Nodup) : ∃ d, Relation.TransGen
      (fun c d => (component Fn).next (body code) c = some d) c d ∧
      Given code t l' (os.map (handover c.1.sched.tickCount)) d := by
  obtain ⟨s, gs⟩ := c
  obtain ⟨f, os', gs', hsteps, rfl⟩ := (steps_effective gs h.pending_slice).2 o os heff
  have hsuffix : o :: (os' ++ gs'.flatMap Prod.snd) <:+ gs.flatMap Prod.snd :=
    heff ▸ effectiveCalls_suffix s.sched _
  have hslice (o' : Call Fn) (ho' : o' ∈ o :: (os' ++ gs'.flatMap Prod.snd)) : SliceCall o' :=
    h.pending_slice o' (hsuffix.subset ho')
  have ho := hslice o List.mem_cons_self
  have hstep : (component Fn).next (body code) (s, (f, o :: os') :: gs') = some
      ((component Fn).land (body code) ((f, os') :: gs') ((component Fn).call s o)) := rfl
  refine ⟨_, Relation.TransGen.tail' hsteps hstep, ?_⟩
  have hland := @given_land _ code s o l' ((f, os') :: gs') h.settled h.running h.slice
    (.inr ho) (hgives ho) hnodup fun o' ho' => hslice o' (List.mem_cons_of_mem _ ho')
  rw [h.turns] at hland
  exact hland

/-- Nobody is in the line: the calls that are left give no turns.  By induction on them. -/
theorem steps_of_nil (h : Given code t [] ks c) : ∃ u, Steps code c (u, []) := by
  induction hn : ks.length using Nat.strong_induction_on generalizing ks c with
  | _ n ih =>
    obtain ⟨-, hline, hidle⟩ := h.given.resolve_right fun ⟨rest, hrest, _⟩ => by cases hrest
    cases heff : effectiveCalls c.1.sched (pending c) with
    | nil =>
      obtain ⟨s, gs⟩ := c
      exact ⟨s, (steps_effective gs h.pending_slice).1 heff⟩
    | cons o os =>
      have hgives (ho : SliceCall o) : c.1.sched.roster.Gives [] (c.1.sched.roster.perform o) := by
        obtain rfl := ho.eq_yield (pass_of_effectiveCalls hidle heff)
        have hyield := (h.settled.inSlice h.running).yield (.inl hidle)
        rwa [show c.1.sched.roster.line = [] from hline] at hyield
      obtain ⟨d, hsteps, hd⟩ := h.call heff hgives List.nodup_nil
      have hlen : (os.map (handover c.1.sched.tickCount)).length < n := by
        have hle := (effectiveCalls_suffix c.1.sched (pending c)).length_le
        have heq := congrArg List.length h.pending_eq
        rw [heff, List.length_cons] at hle
        rw [List.length_map] at heq ⊢
        change (pending c).length = ks.length at heq
        omega
      obtain ⟨u, hu⟩ := ih _ hlen hd rfl
      exact ⟨u, hsteps.to_reflTransGen.trans hu⟩

/-- **Simulation.**  The functions that execute return, or give the next turn. -/
theorem next (h : Given code t l ks c) :
    (t.turn (l, ks) = none → ∃ u, Steps code c (u, [])) ∧
    ∀ l' ks', t.turn (l, ks) = some (l', ks') → ∃ d, Relation.TransGen
      (fun c d => (component Fn).next (body code) c = some d) c d ∧ Given code t l' ks' d := by
  rcases h.given with ⟨rfl, -, -⟩ | ⟨rest, rfl, hnot, hline⟩
  · exact ⟨fun _ => h.steps_of_nil, fun l' ks' hturn => by cases hturn⟩
  · have hslice := h.settled.inSlice h.running
    have hrank : c.1.sched.roster.rank = t.rank := congrArg Turns.rank h.turns
    have hjoin : c.1.sched.roster.line =
        joinLine c.1.sched.roster.rank c.1.sched.roster.currentTaskId rest := hrank ▸ hline
    -- the calls that are left are those of the turn
    have heffective : t.effective c.1.sched.currentTaskId (t.calls c.1.sched.currentTaskId ++ ks) =
        (effectiveCalls c.1.sched (pending c)).map (handover c.1.sched.tickCount) := by
      have hidle : t.idle = idleTaskId := (congrArg Turns.idle h.turns).symm
      have hpending : (pending c).map (handover c.1.sched.tickCount) =
          t.calls c.1.sched.currentTaskId ++ ks := h.pending_eq
      rw [← hpending, Turns.effective, effectiveCalls, hidle]
      split_ifs
      · exact List.dropWhile_map
      · rfl
    have hturns : t.turn (c.1.sched.currentTaskId :: rest, ks) = t.handOver _ rest _ := rfl
    rw [hturns, heffective]
    cases heff : effectiveCalls c.1.sched (pending c) with
    | nil =>
      refine ⟨fun _ => ?_, fun l' ks' hturn => by cases hturn⟩
      obtain ⟨s, gs⟩ := c
      exact ⟨s, (steps_effective gs h.pending_slice).1 heff⟩
    | cons o os =>
      have hnodup := hslice.nodup
      have hrest : rest.Nodup := by
        rw [hjoin] at hnodup
        exact (List.nodup_cons.1 ((joinLine_perm _ _ rest).nodup_iff.1 hnodup)).2
      have hgives (ho : SliceCall o) : c.1.sched.roster.Gives
          (if handover c.1.sched.tickCount o = .leave then rest else c.1.sched.roster.line)
          (c.1.sched.roster.perform o) := by
        rcases ho with rfl | ⟨n, rfl⟩
        · refine hslice.yield (.inr ?_)
          rw [hjoin]
          exact congrArg (joinLine c.1.sched.roster.rank c.1.sched.currentTaskId)
            (erase_joinLine hnot)
        · refine hslice.delay hjoin hnot (fun hidle => ?_) n
          cases SliceCall.eq_yield (.inr ⟨n, rfl⟩) (pass_of_effectiveCalls hidle heff)
      obtain ⟨d, hsteps, hd⟩ := h.call heff hgives (by split_ifs; exacts [hrest, hnodup])
      have hline' : c.1.sched.roster.line = joinLine t.rank c.1.sched.currentTaskId rest := hline
      have hturn : t.handOver c.1.sched.currentTaskId rest
          ((o :: os).map (handover c.1.sched.tickCount)) = some
            (if handover c.1.sched.tickCount o = .leave then rest else c.1.sched.roster.line,
              os.map (handover c.1.sched.tickCount)) := by
        rw [hline', List.map_cons]
        cases handover c.1.sched.tickCount o <;> rfl
      rw [hturn]
      refine ⟨fun hnone => (by cases hnone), fun l' ks' hsome => ?_⟩
      obtain ⟨rfl, rfl⟩ := Prod.mk.inj (Option.some.inj hsome)
      exact ⟨d, hsteps, hd⟩

/-- The stack gets empty iff the turns end. -/
theorem ends_iff (h : Given code t l ks c) : (∃ u, Steps code c (u, [])) ↔ t.Ends (l, ks) := by
  constructor
  · rintro ⟨u, hu⟩
    have hacc := (Reentrant.acc_next hu).transGen
    clear hu
    induction hacc generalizing l ks with
    | intro c _ ih =>
      refine .intro fun ⟨l', ks'⟩ hturn => ?_
      obtain ⟨d, hsteps, hd⟩ := h.next.2 l' ks' hturn
      exact ih d (Relation.transGen_swap.2 hsteps) hd
  · intro hends
    generalize hm : (l, ks) = m at hends
    induction hends generalizing l ks c with
    | intro _ ih =>
      subst hm
      cases hturn : t.turn (l, ks) with
      | none => exact h.next.1 hturn
      | some m =>
        obtain ⟨d, hsteps, hd⟩ := h.next.2 m.1 m.2 hturn
        obtain ⟨u, hu⟩ := ih m hturn hd rfl
        exact ⟨u, hsteps.to_reflTransGen.trans hu⟩

end Given

/-- **Slices as turns.** -/
theorem returns_iff_ends {s : Counted Fn} (hs : s.sched.Settled) (hrunning : s.sched.running = true)
    (hslice : ∀ id, ∀ o ∈ s.sched.roster.callsOf code id, SliceCall o) :
    Reentrant.Returns (component Fn) (body code) s .schedule ↔
      (s.sched.roster.turns code).Ends (s.sched.readyIds, []) :=
  (@given_land _ code s .schedule _ [] hs hrunning hslice (.inl rfl)
    (hs.inSlice hrunning).schedule hs.nodup_readyIds (by simp)).ends_iff

/-! ### Schedulers that can be reached -/

/-- The condition under which the turns of the tasks in the ready queue end. -/
def Scheduler.SliceSettles (code : Fn → List (Call Fn)) (s : Scheduler Fn) : Prop :=
  (s.roster.turns code).Settles s.readyIds

instance (code : Fn → List (Call Fn)) : DecidablePred (Scheduler.SliceSettles code) :=
  fun s => inferInstanceAs (Decidable ((s.roster.turns code).Settles s.readyIds))

variable (code) in
theorem Roster.callsOf_cases (a : Roster Fn) (id : TaskId) :
    a.callsOf code id = [] ∨ ∃ f, a.callsOf code id = code f := by
  unfold Roster.callsOf
  split
  · exact .inl rfl
  · rename_i p _
    cases hf : p.function with
    | idleLoop => exact .inl (by simp [body])
    | user f => exact .inr ⟨f, by simp [body]⟩

theorem StraightLine.sliceCall (hcode : StraightLine code) {a : Roster Fn} {id : TaskId}
    {o : Call Fn} (ho : o ∈ a.callsOf code id) : SliceCall o := by
  rcases a.callsOf_cases code id with hnil | ⟨f, hf⟩
  · rw [hnil] at ho
    cases ho
  · exact hcode f o (hf ▸ ho)

/-- Functions that only yield after their first call only pass the turn on after it. -/
theorem tail_calls {a : Roster Fn} (hcode : ∀ f, ∀ o ∈ (code f).tail, o = .yield) (id : TaskId) :
    ∀ k ∈ ((a.turns code).calls id).tail, k = .pass := by
  intro k hk
  change k ∈ (if id = idleTaskId then [] else
    (a.callsOf code id).map (handover a.tickCount)).tail at hk
  split_ifs at hk
  · cases hk
  · rw [← List.map_tail] at hk
    obtain ⟨o, ho, rfl⟩ := List.mem_map.1 hk
    rcases a.callsOf_cases code id with hnil | ⟨f, hf⟩
    · rw [hnil] at ho
      cases ho
    · rw [hcode f o (hf ▸ ho)]
      rfl

theorem StraightLine.returns (hcode : StraightLine code) {s : Counted Fn} (hset : s.sched.Settled)
    (hs : s.sched.running = true) (h : s.sched.SliceSettles code) :
    Reentrant.Returns (component Fn) (body code) s .schedule :=
  (returns_iff_ends hset hs fun _ _ ho => hcode.sliceCall ho).2
    (Turns.ends_of_settles (hset.inSlice hs).line h)

theorem StraightLine.settles_of_returns (hcode : StraightLine code) {s : Counted Fn}
    (hset : s.sched.Settled) (hs : s.sched.running = true)
    (htails : ∀ f, ∀ o ∈ (code f).tail, o = .yield)
    (h : Reentrant.Returns (component Fn) (body code) s .schedule) : s.sched.SliceSettles code := by
  have hends := (returns_iff_ends hset hs fun _ _ ho => hcode.sliceCall ho).1 h
  by_contra hnot
  exact Turns.not_ends_of_not_settles (hset.inSlice hs).line (fun id _ => tail_calls htails id) hnot
    hends

/-- **Termination of a slice.**  `schedule()` returns if the tasks in the ready queue settle, and
only then if functions only yield after their first call. -/
theorem slice_returns (hcode : StraightLine code) {c : ProgramConfig Fn}
    (h : (programs code).Reachable programStart c) (hs : c.1.sched.running = true) :
    (c.1.sched.SliceSettles code →
      Reentrant.Returns (component Fn) (body code) c.1 .schedule) ∧
    ((∀ f, ∀ o ∈ (code f).tail, o = .yield) →
      Reentrant.Returns (component Fn) (body code) c.1 .schedule →
      c.1.sched.SliceSettles code) := by
  have hset := settled_of_programs h
  exact ⟨hcode.returns hset hs, hcode.settles_of_returns hset hs⟩

/-- A function that delays its task and then yields, one that yields, and one that does nothing. -/
def threeFunctions : Fin 3 → List (Call (Fin 3))
  | 0 => [.delay 3, .yield]
  | 1 => [.yield]
  | 2 => []

theorem slice_returns_threeFunctions : ∃ c,
    (programs threeFunctions).Reachable programStart c ∧ c.1.sched.running = true ∧
      c.1.sched.SliceSettles threeFunctions ∧
      Reentrant.Returns (component (Fin 3)) (body threeFunctions) c.1 .schedule := by
  have hcode : StraightLine threeFunctions := by
    intro f o ho
    fin_cases f <;> simp [threeFunctions] at ho
    · rcases ho with rfl | rfl
      · exact .inr ⟨3, rfl⟩
      · exact .inl rfl
    · exact .inl ho
  have hrun : ((component (Fin 3)).progAfter (body threeFunctions) MayStep programStart
      [some (.createTask "a" (some 0) 2 1024), some (.createTask "b" (some 2) 1 1024),
        some (.createTask "c" (some 1) 1 1024), some (.createTask "d" (some 2) 1 1024),
        some .start]).any
        (fun c => c.1.sched.running = true ∧ c.1.sched.SliceSettles threeFunctions) = true := by
    decide
  obtain ⟨c, hc, hcond⟩ := (Option.any_eq_true ..).1 hrun
  obtain ⟨hs, hsettles⟩ := of_decide_eq_true hcond
  have hreach : (programs threeFunctions).Reachable programStart c :=
    ⟨_, Reentrant.run_of_progAfter _ hc⟩
  exact ⟨c, hreach, hs, hsettles, (slice_returns hcode hreach hs).1 hsettles⟩

/-- A task that yields is executed again before its `yield` returns. -/
theorem not_slice_returns_yield : StraightLine (fun _ : Unit => [.yield]) ∧
    ∃ c, (programs fun _ : Unit => [.yield]).Reachable programStart c ∧
      c.1.sched.running = true ∧
      ¬ Reentrant.Returns (component Unit) (body fun _ => [.yield]) c.1 .schedule := by
  have hcode : StraightLine (fun _ : Unit => [.yield]) :=
    fun _ o ho => .inl (List.mem_singleton.1 ho)
  have hrun : ((component Unit).progAfter (body fun _ => [.yield]) MayStep programStart
      [some (.createTask "a" (some ()) 1 1024), some .start]).any
        (fun c => c.1.sched.running = true ∧ ¬ c.1.sched.SliceSettles fun _ => [.yield]) =
        true := by decide
  obtain ⟨c, hc, hcond⟩ := (Option.any_eq_true ..).1 hrun
  obtain ⟨hs, hnot⟩ := of_decide_eq_true hcond
  have hreach : (programs fun _ : Unit => [.yield]).Reachable programStart c :=
    ⟨_, Reentrant.run_of_progAfter _ hc⟩
  refine ⟨hcode, c, hreach, hs, fun hreturns => hnot ?_⟩
  exact hcode.settles_of_returns (settled_of_programs hreach) hs (by simp) hreturns

end Rtos

end EFS
