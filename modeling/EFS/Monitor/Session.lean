import EFS.Monitor.ReadBack

/-!
# Interactive sessions

`runInteractiveSession` reads lines and executes them until there are no more, or one of them says
`exit` or `quit`.

* `lineCall` : the call of the CPU that a line stands for, if any.
* `follows_executeCommand` : a command does to the simulator what that call does, and nothing else.
* `runInteractiveSession_runs` : a session is the program of the calls that its lines stand for.
-/

namespace EFS

open EFS.Bytes EFS.Drivers EFS.Kernel

namespace Method

variable {σ α β : Type} {x : Method σ α} {f : α → Method σ β}

namespace Completes

theorem pure (a : α) : Completes (Pure.pure a : Method σ α) := fun s => ⟨a, s, rfl⟩

theorem modifying (g : σ → σ) : Completes (modify g : Method σ PUnit) := fun s => ⟨⟨⟩, g s, rfl⟩

theorem bind (hx : Completes x) (hf : ∀ a, Completes (f a)) : Completes (x >>= f) := by
  intro s
  obtain ⟨a, s', hcall⟩ := hx s
  rw [call_bind_ok x f a s hcall]
  exact hf a s'

theorem get_bind {k : σ → Method σ β} (h : ∀ s, Completes (k s)) : Completes (get >>= k) :=
  bind (fun s => ⟨s, s, rfl⟩) h

theorem ite {c : Prop} [Decidable c] {y : Method σ α} (hx : Completes x) (hy : Completes y) :
    Completes (if c then x else y) := by
  split
  · exact hx
  · exact hy

theorem ofExcept {r : Except String α} (h : ∃ a, r = .ok a) :
    Completes (Method.ofExcept r : Method σ α) := by
  obtain ⟨a, rfl⟩ := h
  exact pure a

theorem forM {l : List α} {k : α → Method σ PUnit} (h : ∀ a ∈ l, Completes (k a)) :
    Completes (l.forM k) := by
  induction l with
  | nil => exact pure _
  | cons a l ih =>
    exact bind (h a List.mem_cons_self) fun _ => ih fun b hb => h b (List.mem_cons_of_mem _ hb)

end Completes

end Method

namespace Monitor

variable {σ Cb H R : Type} (m : Monitor σ Cb H R)

/-! ### Input -/

/-- `std::getline` : a line and what is left, unless nothing is left. -/
def getline (input : List UInt8) : Option (List UInt8 × List UInt8) :=
  if input = [] then none
  else
    let line := input.takeWhile (· ≠ 10)
    some (line, input.drop (line.length + 1))

theorem length_of_getline {input line rest : List UInt8} (h : getline input = some (line, rest)) :
    rest.length < input.length := by
  unfold getline at h
  split_ifs at h with hne
  obtain ⟨rfl, rfl⟩ := Prod.mk.inj (Option.some.inj h)
  have hpos : 0 < input.length := List.length_pos_iff.2 hne
  rw [List.length_drop]
  omega

/-- The loop of `runInteractiveSession`. -/
def sessionLoop (input : List UInt8) : Method (Session σ) Unit :=
  match _ : getline input with
  | none => return
  | some (line, rest) => do
    if ¬ (← m.executeCommand line) then return
    else do
      print "> "
      sessionLoop rest
termination_by input.length
decreasing_by exact length_of_getline ‹_›

/-- `runInteractiveSession()` on the input that is left. -/
def runInteractiveSession (input : List UInt8) : Method (Session σ) Unit := do
  print "Embedded Firmware Simulator Monitor (v1.0)\n"
  print "Type 'help' for a list of commands.\n"
  print "> "
  m.sessionLoop input

/-! ### What the lines stand for -/

/-- The lines of a text.  The last one need not be ended. -/
def lines (input : List UInt8) : List (List UInt8) :=
  let ls := input.splitOn 10
  if ls.getLast? = some [] then ls.dropLast else ls

/-- The cycles that the arguments of `run` ask for. -/
def count (args : List UInt8) : Option UInt64 :=
  if args ≠ [] ∧ args.all isdigit ∧ 1 ≤ value 10 args ∧ value 10 args < 2 ^ 64 then
    some (.ofNat (value 10 args))
  else none

/-- The call of the CPU that an input line asks for. -/
def lineCall (line : List UInt8) : Option CPUCall :=
  let word := toLower (firstWord line)
  if word = text "reset" then some .reset
  else if word = text "step" then some .step
  else if word = text "run" then (count (split (trim line)).2).map .run
  else none

/-- The line ends the session. -/
def exits (line : List UInt8) : Bool :=
  toLower (firstWord line) = text "exit" ∨ toLower (firstWord line) = text "quit"

/-- The calls of a session: those of its lines, up to the one that ends it. -/
def sessionCalls (input : List UInt8) : List CPUCall :=
  ((lines input).takeWhile fun line => !exits line).filterMap lineCall

theorem lines_of_getline {input line rest : List UInt8} (h : getline input = some (line, rest)) :
    lines input = line :: lines rest := by
  unfold getline at h
  split_ifs at h with hne
  obtain ⟨hline, hrest⟩ := Prod.mk.inj (Option.some.inj h)
  -- the line ends before the first line feed, or with the input
  have hno : ∀ b ∈ line, (b == 10) = false := by
    intro b hb
    rw [← hline] at hb
    simpa using List.mem_takeWhile_imp hb
  have happend : line ++ input.dropWhile (· ≠ 10) = input :=
    hline ▸ List.takeWhile_append_dropWhile
  have hhead := List.head?_dropWhile_not (fun b : UInt8 => decide (b ≠ 10)) input
  cases hdrop : input.dropWhile (· ≠ 10) with
  | nil =>
    rw [hdrop, List.append_nil] at happend
    obtain rfl : rest = [] := by
      rw [← hrest, hline, happend, List.drop_eq_nil_of_le (Nat.le_succ _)]
    have hsplit : input.splitOn 10 = [line] := by
      rw [← happend]
      exact List.splitOnP_eq_singleton hno
    rw [lines, hsplit]
    simp [lines, happend, hne]
  | cons b r =>
    rw [hdrop] at happend hhead
    obtain rfl : b = 10 := by simpa using hhead
    obtain rfl : rest = r := by
      rw [← hrest, hline, ← happend, List.drop_append]
      simp
    have hsplit : input.splitOn 10 = line :: rest.splitOn 10 := by
      rw [← happend, List.splitOn, List.splitOnP_append_cons _ _ (by decide),
        List.splitOnP_eq_singleton hno]
      rfl
    obtain ⟨l, ls, hls⟩ := List.exists_cons_of_ne_nil (List.splitOnP_ne_nil (· == 10) rest)
    have hls : rest.splitOn 10 = l :: ls := hls
    rw [lines, lines, hsplit, hls, List.getLast?_cons_cons, List.dropLast_cons_cons]
    split_ifs <;> rfl

theorem count_eq_some {args : List UInt8} {n : UInt64} : count args = some n ↔ Count args n := by
  unfold count
  split_ifs with h
  · obtain ⟨hne, hdigits, hpos, hlt⟩ := h
    have hvalue : (UInt64.ofNat (value 10 args)).toNat = value 10 args :=
      UInt64.toNat_ofNat_of_lt' hlt
    constructor
    · rintro hn
      obtain rfl := Option.some.inj hn
      exact ⟨hne, List.all_eq_true.1 hdigits, hvalue.symm, hvalue.symm ▸ hpos⟩
    · rintro hn
      rw [hn.value, UInt64.ofNat_toNat]
  · refine iff_of_false nofun fun hn => h ⟨hn.ne_nil, List.all_eq_true.2 hn.digits, ?_, ?_⟩
    · exact hn.value.symm ▸ hn.pos
    · exact hn.value.symm ▸ n.toNat_lt

/-! ### Commands that print -/

/-- The statement returns `b` and changes nothing but the output. -/
def Answers {α : Type} (b : α) (x : Method (Session σ) α) : Prop :=
  ∀ s, ∃ output, x.call s = (.ok b, { s with output })

theorem answers_of_completes {x : Method (Session σ) Unit} (hprints : OnlyPrints x)
    (hx : x.Completes) : Answers () x := by
  intro s
  obtain ⟨⟨⟩, s', hcall⟩ := hx s
  obtain ⟨hsystem, hcalls⟩ := Prod.mk.inj (hprints s)
  rw [hcall] at hsystem hcalls
  refine ⟨s'.output, hcall.trans ?_⟩
  rw [← hsystem, ← hcalls]

theorem Answers.then {x : Method (Session σ) Unit} (hx : Answers () x) (b : Bool) :
    Answers b (x >>= fun _ => pure b) := by
  intro s
  obtain ⟨output, hcall⟩ := hx s
  exact ⟨output, Method.call_bind_ok _ _ _ _ hcall⟩

theorem Answers.ite {c : Prop} [Decidable c] {b : Bool} {x y : Method (Session σ) Bool}
    (hx : Answers b x) (hy : Answers b y) : Answers b (if c then x else y) := by
  split
  · exact hx
  · exact hy

theorem answers_write (bytes : List UInt8) : Answers () (write bytes : Method (Session σ) Unit) :=
  fun s => ⟨s.output ++ bytes, rfl⟩

theorem Prints.answers {x : Method (Session σ) Unit} (h : ∀ s, ∃ printed, Prints x s printed) :
    Answers () x := by
  intro s
  obtain ⟨printed, hprinted⟩ := h s
  exact ⟨_, hprinted⟩

theorem completes_write (bytes : List UInt8) :
    (write bytes : Method (Session σ) Unit).Completes := .modifying _

variable {m} {cpu : CPU σ Cb}

theorem answers_printRegs : Answers () m.printRegs := by
  cases hcpu : m.cpu with
  | none =>
    rw [printRegs, hcpu]
    exact answers_write _
  | some cpu => exact Prints.answers fun s => ⟨_, prints_printRegs hcpu s⟩

theorem answers_mmio : Answers () m.printMMIO := by
  cases hbus : m.mmioBus with
  | none =>
    rw [ printMMIO, hbus]
    exact answers_write _
  | some bus => exact Prints.answers fun s => ⟨_, prints_mmio hbus s⟩

theorem answers_gpio : Answers () m.printGPIO := by
  refine answers_of_completes m.onlyPrints_printGPIO ?_
  unfold printGPIO
  cases m.gpio with
  | none => exact completes_write _
  | some gpio =>
    refine .get_bind fun s => .bind (completes_write _) fun _ => .forM fun i hi => ?_
    have hvalid : ¬ GPIO.maxPins ≤ (UInt8.ofNat i).toNat := by
      have hlt : i < 8 := List.mem_range.1 hi
      have hle : (UInt8.ofNat i).toNat ≤ i := by
        rw [UInt8.toNat_ofNat']
        exact Nat.mod_le _ _
      exact not_le.2 (show (UInt8.ofNat i).toNat < 32 by omega)
    refine .bind (.ofExcept ?_) fun _ => completes_write _
    rw [ GPIO.readPin, GPIO.validatePin, if_neg hvalid]
    exact ⟨_, rfl⟩

theorem answers_printInterrupts : Answers () m.printInterrupts := by
  refine answers_of_completes m.onlyPrints_printInterrupts ?_
  unfold printInterrupts
  cases m.interruptController with
  | none => exact completes_write _
  | some interruptController =>
    refine .get_bind fun s => .bind (completes_write _) fun _ => .forM fun i _ => ?_
    unfold printInterrupt
    dsimp only
    split_ifs with hregistered
    · -- the id of a registered line is valid
      cases hid : InterruptController.validateInterruptId (UInt8.ofNat i) with
      | error e =>
        rw [InterruptController.isRegistered, hid] at hregistered
        cases hregistered
      | ok line =>
        refine .bind (.ofExcept ?_) fun _ => .bind (.ofExcept ?_) fun _ =>
          .bind (.ofExcept ?_) fun _ => completes_write _
        · rw [InterruptController.enabled, hid]
          exact ⟨_, rfl⟩
        · rw [InterruptController.pending, hid]
          exact ⟨_, rfl⟩
        · rw [InterruptController.getPriority, hid]
          exact ⟨_, rfl⟩
    · exact .pure _

theorem answers_printMemory (args : List UInt8) : Answers () (m.printMemory args) := by
  refine answers_of_completes (m.onlyPrints_printMemory args) ?_
  unfold printMemory
  cases m.memory with
  | none => exact completes_write _
  | some memory =>
    dsimp only
    refine .ite (completes_write _) ?_
    rcases memoryArguments args with ⟨addrStr, _ | n⟩
    · exact completes_write _
    · dsimp only
      refine .ite (completes_write _) ?_
      cases stoull addrStr 0 with
      | error e => exact completes_write _
      | ok address =>
        refine .get_bind fun s => ?_
        exact fun s' => ⟨_, _, prints_printBytes (memory s.system) address.1 n s'⟩

theorem answers_printEvents : Answers () m.printEvents := by
  refine answers_of_completes m.onlyPrints_printEvents (.get_bind fun s => ?_)
  cases m.schedPtr s.system with
  | none => exact completes_write _
  | some sched =>
    dsimp only
    exact .ite (completes_write _)
      (.bind (completes_write _) fun _ => .forM fun _ _ => completes_write _)

theorem answers_printClock : Answers () m.printClock := by
  refine answers_of_completes m.onlyPrints_printClock (.get_bind fun s => ?_)
  cases m.clockPtr s.system <;> exact completes_write _

theorem answers_printTimer : Answers () m.printTimer := by
  refine answers_of_completes m.onlyPrints_printTimer ?_
  unfold printTimer
  cases m.timer with
  | none => exact completes_write _
  | some timer => exact .get_bind fun s => completes_write _

theorem answers_printUART : Answers () m.printUART := by
  refine answers_of_completes m.onlyPrints_printUART ?_
  unfold printUART
  cases m.uart with
  | none => exact completes_write _
  | some uart => exact .get_bind fun s => completes_write _

/-- A run without a count. -/
theorem answers_handleRun {args : List UInt8} (hcpu : m.cpu = some cpu)
    (hhead : ∀ b ∈ args.head?, isspace b = false) (h : ∀ n, ¬ Count args n) :
    Answers () (m.handleRun args) := by
  refine answers_of_completes (onlyPrints_handleRun hcpu hhead h) ?_
  rw [handleRun, hcpu]
  cases args with
  | nil => exact completes_write _
  | cons d ds =>
    have hfirst : (d :: ds).find? (fun b => !isSeparator b) = some d :=
      List.find?_cons_of_pos (not_isSeparator (hhead d rfl))
    dsimp only
    rw [if_neg (List.cons_ne_nil d ds), hfirst, Option.any_some]
    by_cases hd : isdigit d = true
    · rw [if_neg (not_not.2 hd)]
      cases hread : stoull (d :: ds) 10 with
      | error e => exact completes_write _
      | ok r =>
        -- `stoull` stopped before the end of the arguments, or the count is 0
        have hrefused : r.2 ≠ (d :: ds).length ∨ r.1 = 0 := by
          by_contra hok
          obtain ⟨hlength, hn⟩ := not_or.1 hok
          rw [not_not] at hlength
          exact h r.1 ((count_iff hd ds r.1).2 ⟨hlength ▸ hread, hn⟩)
        dsimp only
        rw [if_pos hrefused]
        exact completes_write _
    · rw [if_pos hd]
      exact completes_write _

/-! ### What a command does -/

/-- The command makes this call of the CPU, and returns `true` if the call does not throw. -/
def Calls (cpu : CPU σ Cb) (c : CPUCall) (x : Method (Session σ) Bool) : Prop :=
  ∀ s, ∃ output, x.call s = (((cpu.call c).call s.system).1.map fun _ => true,
    ⟨((cpu.call c).call s.system).2, s.calls ++ [c], output⟩)

/-- A call, then something is printed. -/
theorem calls_callCPU {c : CPUCall} {rest : Unit → Method (Session σ) Unit}
    (hrest : Answers () (rest ())) :
    Calls cpu c ((callCPU cpu c >>= rest) >>= fun _ => pure true) := by
  intro s
  have hcall : (callCPU cpu c).call s = (((cpu.call c).call s.system).1,
      ⟨((cpu.call c).call s.system).2, s.calls ++ [c], s.output⟩) := rfl
  rcases hmade : (cpu.call c).call s.system with ⟨e | ⟨⟩, system⟩
  · rw [hmade] at hcall
    refine ⟨s.output, ?_⟩
    exact Method.call_bind_error _ _ _ _ (Method.call_bind_error _ _ _ _ hcall)
  · rw [hmade] at hcall
    obtain ⟨output, hprinted⟩ := hrest ⟨system, s.calls ++ [c], s.output⟩
    refine ⟨output, ?_⟩
    exact Method.call_bind_ok _ _ _ _ ((Method.call_bind_ok _ _ _ _ hcall).trans hprinted)

/-- **A command.**  What it does to the simulator is the call that the line stands for. -/
def Follows (cpu : CPU σ Cb) (line : List UInt8) (x : Method (Session σ) Bool) : Prop :=
  match lineCall line with
  | some c => Calls cpu c x ∧ exits line = false
  | none => Answers (!exits line) x

/-- The commands that make no call. -/
theorem answers_dispatch {cmdWord args : List UInt8} (hrun : toLower cmdWord ≠ text "run")
    (hstep : toLower cmdWord ≠ text "step") (hreset : toLower cmdWord ≠ text "reset") :
    Answers (!decide (toLower cmdWord = text "exit" ∨ toLower cmdWord = text "quit"))
      (m.dispatch cmdWord args) := by
  by_cases hexit : toLower cmdWord = text "exit" ∨ toLower cmdWord = text "quit"
  · have hhelp : toLower cmdWord ≠ text "help" := by
      rcases hexit with h | h <;> rw [h] <;> decide
    rw [decide_eq_true hexit, dispatch, if_neg hhelp, if_pos hexit]
    exact (answers_write _).then false
  rw [decide_eq_false hexit, dispatch, if_neg hexit, if_neg hreset, if_neg hstep, if_neg hrun]
  refine .ite ((answers_write _).then true) ?_
  refine .ite (answers_printRegs.then true) ?_
  refine .ite (answers_gpio.then true) ?_
  refine .ite (answers_printTimer.then true) ?_
  refine .ite (answers_printInterrupts.then true) ?_
  refine .ite ((answers_printMemory args).then true) ?_
  refine .ite (answers_mmio.then true) ?_
  refine .ite (answers_printUART.then true) ?_
  refine .ite (answers_printClock.then true) ?_
  exact .ite (answers_printEvents.then true) ((answers_write _).then true)

theorem dispatch_step {cmdWord args : List UInt8} (h : toLower cmdWord = text "step") :
    m.dispatch cmdWord args = (do
      m.handleStep
      return true) := by
  rw [dispatch, h]
  rfl

theorem dispatch_reset {cmdWord args : List UInt8} (h : toLower cmdWord = text "reset") :
    m.dispatch cmdWord args = (do
      m.handleReset
      return true) := by
  rw [dispatch, h]
  rfl

theorem not_exits {line : List UInt8} {word : String} (hline : toLower (firstWord line) = text word)
    (hword : ¬ (text word = text "exit" ∨ text word = text "quit")) : exits line = false := by
  rw [exits, hline]
  exact decide_eq_false hword

theorem follows_executeCommand (hcpu : m.cpu = some cpu) (line : List UInt8) :
    Follows cpu line (m.executeCommand line) := by
  by_cases hempty : trim line = []
  · obtain ⟨hcommand, hfirst⟩ := executeCommand_empty (m := m) hempty
    have hcall : lineCall line = none := by
      rw [lineCall, hfirst]
      rfl
    rw [Follows, hcall, hcommand, exits, hfirst]
    exact fun s => ⟨s.output, rfl⟩
  rw [executeCommand_dispatch hempty, Follows, lineCall]
  -- only three command words call the CPU, and each is looked for in this order
  by_cases hreset : toLower (firstWord line) = text "reset"
  · rw [if_pos hreset, dispatch_reset hreset, handleReset, hcpu]
    exact ⟨calls_callCPU (answers_write _), not_exits hreset (by decide)⟩
  by_cases hstep : toLower (firstWord line) = text "step"
  · rw [if_neg hreset, if_pos hstep, dispatch_step hstep, handleStep, hcpu]
    exact ⟨calls_callCPU fun s => ⟨_, rfl⟩, not_exits hstep (by decide)⟩
  by_cases hrun : toLower (firstWord line) = text "run"
  · rw [if_neg hreset, if_neg hstep, if_pos hrun, dispatch_run hrun,
      not_exits hrun (by decide)]
    cases hcount : count (split (trim line)).2 with
    | none =>
      have hno (n : UInt64) : ¬ Count (split (trim line)).2 n := fun hn => by
        rw [count_eq_some.2 hn] at hcount
        cases hcount
      exact (answers_handleRun hcpu (head?_split_snd _) hno).then true
    | some n =>
      rw [handleRun_of_count hcpu (count_eq_some.1 hcount)]
      exact ⟨calls_callCPU fun s => ⟨_, rfl⟩, rfl⟩
  · rw [if_neg hreset, if_neg hstep, if_neg hrun]
    exact answers_dispatch hrun hstep hreset

/-! ### Sessions -/

theorem sessionCalls_of_getline {input line rest : List UInt8}
    (h : getline input = some (line, rest)) : sessionCalls input =
      if exits line then [] else (lineCall line).toList ++ sessionCalls rest := by
  rw [sessionCalls, lines_of_getline h, List.takeWhile_cons]
  cases exits line with
  | true => rfl
  | false =>
    cases hcall : lineCall line <;> simp [hcall, sessionCalls]

/-- The session leaves what these calls leave, and has made them up to the first one that throws. -/
structure Runs (cpu : CPU σ Cb) (made : List CPUCall) (s : Session σ)
    (called : Except String Unit × Session σ) : Prop where
  result : called.1 = ((made.forM cpu.call).call s.system).1
  system : called.2.system = ((made.forM cpu.call).call s.system).2
  calls : ∃ calls, called.2.calls = s.calls ++ calls ∧ calls <+: made ∧
    (called.1 = .ok () → calls = made)

theorem runs_nil (s : Session σ) (output : List UInt8) :
    Runs cpu [] s (.ok (), { s with output }) :=
  ⟨rfl, rfl, [], (List.append_nil _).symm, List.nil_prefix, fun _ => rfl⟩

theorem Runs.ofOutput {made : List CPUCall} {s : Session σ} {output : List UInt8}
    {called : Except String Unit × Session σ} (h : Runs cpu made { s with output } called) :
    Runs cpu made s called := ⟨h.result, h.system, h.calls⟩

theorem runs_throw {c : CPUCall} {made : List CPUCall} {s : Session σ} {e : String} {system : σ}
    (hcall : (cpu.call c).call s.system = (.error e, system)) (output : List UInt8) :
    Runs cpu (c :: made) s (.error e, ⟨system, s.calls ++ [c], output⟩) := by
  have hdriven : ((c :: made).forM cpu.call).call s.system = (.error e, system) :=
    Method.call_bind_error _ _ _ _ hcall
  refine ⟨by rw [hdriven], by rw [hdriven], [c], rfl, ?_, nofun⟩
  exact List.cons_prefix_cons.2 ⟨rfl, List.nil_prefix⟩

theorem Runs.cons {c : CPUCall} {made : List CPUCall} {s : Session σ} {system : σ}
    {output : List UInt8} {called : Except String Unit × Session σ}
    (hcall : (cpu.call c).call s.system = (.ok (), system))
    (h : Runs cpu made ⟨system, s.calls ++ [c], output⟩ called) :
    Runs cpu (c :: made) s called := by
  have hdriven : ((c :: made).forM cpu.call).call s.system = (made.forM cpu.call).call system :=
    Method.call_bind_ok _ _ _ _ hcall
  obtain ⟨calls, hcalls, hbegin, hall⟩ := h.calls
  refine ⟨h.result.trans (by rw [hdriven]), h.system.trans (by rw [hdriven]), c :: calls, ?_, ?_,
    ?_⟩
  · rw [hcalls]
    simp
  · exact List.cons_prefix_cons.2 ⟨rfl, hbegin⟩
  · exact fun hok => congrArg _ (hall hok)

/-- The loop, by induction on what is left of the input. -/
theorem runs_sessionLoop (hcpu : m.cpu = some cpu) (input : List UInt8) (s : Session σ) :
    Runs cpu (sessionCalls input) s ((m.sessionLoop input).call s) := by
  induction hlength : input.length using Nat.strongRecOn generalizing input s with
  | ind n ih =>
    rw [sessionLoop]
    split
    · rename_i hline
      -- there is no line: the session is over
      obtain rfl : input = [] := by
        by_contra hne
        rw [getline, if_neg hne] at hline
        cases hline
      exact runs_nil s s.output
    · rename_i line rest hline
      -- what follows the line, after another prompt
      have hrest (s' : Session σ) :
          Runs cpu (sessionCalls rest) s'
            ((print "> " >>= fun _ => m.sessionLoop rest).call s') := by
        have hnext := ih rest.length (hlength ▸ length_of_getline hline) rest
          { s' with output := s'.output ++ text "> " } rfl
        have hprompt : Prints (print "> ") s' (text "> ") := rfl
        rw [Method.call_bind_ok _ _ _ _ hprompt]
        exact hnext.ofOutput
      have hfollows := follows_executeCommand hcpu line
      rw [sessionCalls_of_getline hline]
      rw [Follows] at hfollows
      cases hcall : lineCall line with
      | none =>
        rw [hcall] at hfollows
        obtain ⟨output, hprinted⟩ := hfollows s
        rw [Method.call_bind_ok _ _ _ _ hprinted]
        cases exits line with
        | true => exact runs_nil s output
        | false => exact (hrest _).ofOutput
      | some c =>
        rw [hcall] at hfollows
        obtain ⟨hcalls, hstays⟩ := hfollows
        obtain ⟨output, hmade⟩ := hcalls s
        rw [hstays]
        rcases hthrows : (cpu.call c).call s.system with ⟨e | ⟨⟩, system⟩
        · rw [hthrows] at hmade
          rw [Method.call_bind_error _ _ _ _ hmade]
          exact runs_throw hthrows output
        · rw [hthrows] at hmade
          rw [Method.call_bind_ok _ _ _ _ hmade]
          exact .cons hthrows (hrest _)

/-- **A session is the program of its calls.**  The simulator is left as by the calls that the lines
stand for, up to the line that ends the session, and no command but these makes a call or throws. -/
theorem runInteractiveSession_runs (hcpu : m.cpu = some cpu) (input : List UInt8) (s : Session σ) :
    let called := (m.runInteractiveSession input).call s
    let driven := ((sessionCalls input).forM cpu.call).call s.system
    called.1 = driven.1 ∧ called.2.system = driven.2 ∧
      ∃ calls, called.2.calls = s.calls ++ calls ∧ calls <+: sessionCalls input ∧
        (called.1 = .ok () → calls = sessionCalls input) := by
  obtain ⟨hresult, hsystem, hcalls⟩ : Runs cpu (sessionCalls input) s
      ((m.runInteractiveSession input).call s) := (runs_sessionLoop hcpu input _).ofOutput
  exact ⟨hresult, hsystem, hcalls⟩

/-- Nothing is done after `quit`. -/
theorem runInteractiveSession_runs_quit :
    ((counterMonitor.runInteractiveSession
        (text "step\nrun 5\nregs\n Quit\nreset")).call ⟨3, [], []⟩).2.system = 9 := by
  have hruns := runInteractiveSession_runs (m := counterMonitor) rfl
    (text "step\nrun 5\nregs\n Quit\nreset") ⟨3, [], []⟩
  have hcalls : sessionCalls (text "step\nrun 5\nregs\n Quit\nreset") = [.step, .run 5] := by
    decide
  rw [hruns.2.1, hcalls]
  rfl

end Monitor

end EFS
