import EFS.Monitor.Printing

/-!
# Commands of the monitor

`executeCommand` trims a line, splits it at the first space or tab, and selects the command by its
first word in any letter case.

* `RunLine` : the lines that the command `run` accepts, and the number of cycles.
* `runLine_iff` : they are those whose first word is `run` and whose arguments are a number.
* `executeCommand_calls` : `CPU::run` is called exactly for these lines, what changes the simulator,
  and when the monitor exits.
-/

namespace EFS

open EFS.Bytes

namespace Monitor

/-! ### Splitting a line -/

/-- `toLower()` of a command word. -/
def toLower (s : List UInt8) : List UInt8 := s.map tolower

/-- One of the characters that end a command word. -/
def isSeparator (b : UInt8) : Bool := b = 32 ∨ b = 9

/-- The first word, `find_first_of(" \t")` being the position after it, and the arguments. -/
def split (trimmed : List UInt8) : List UInt8 × List UInt8 :=
  match trimmed.findIdx? isSeparator with
  | none => (trimmed, [])
  | some spacePos => (trimmed.take spacePos, trim (trimmed.drop spacePos))

/-- The part of the trimmed line before the first space or tab. -/
def firstWord (line : List UInt8) : List UInt8 := (trim line).takeWhile fun b => !isSeparator b

/-- The line is `run`, a space or a tab, and a number, with white space between and around them. -/
def RunLine (line : List UInt8) (cycles : ℕ) : Prop :=
  ∃ before word separator blanks digits after,
    line = before ++ (word ++ separator :: (blanks ++ digits)) ++ after ∧
    (∀ b ∈ before, isspace b = true) ∧ (∀ b ∈ after, isspace b = true) ∧
    toLower word = text "run" ∧ isSeparator separator = true ∧
    (∀ b ∈ blanks, isspace b = true) ∧ digits ≠ [] ∧ (∀ b ∈ digits, isdigit b = true) ∧
    value 10 digits = cycles

/-- The arguments are a number of cycles. -/
structure Count (args : List UInt8) (cycles : UInt64) : Prop where
  ne_nil : args ≠ []
  digits : ∀ b ∈ args, isdigit b = true
  value : value 10 args = cycles.toNat
  pos : 1 ≤ cycles.toNat

theorem isspace_of_isSeparator {b : UInt8} (h : isSeparator b = true) : isspace b = true := by
  rcases of_decide_eq_true h with rfl | rfl <;> rfl

theorem not_isSeparator {b : UInt8} (h : isspace b = false) : (!isSeparator b) = true := by
  by_contra hb
  have hspace : isspace b = true := isspace_of_isSeparator (by simpa using hb)
  rw [h] at hspace
  cases hspace

theorem split_eq (t : List UInt8) :
    split t =
      (t.takeWhile fun b => !isSeparator b, trim (t.dropWhile fun b => !isSeparator b)) := by
  rw [split, List.takeWhile_eq_take_findIdx_not, List.dropWhile_eq_drop_findIdx_not]
  simp only [Bool.not_not]
  cases hfind : t.findIdx? isSeparator with
  | none =>
    have hlength : t.findIdx isSeparator = t.length := List.findIdx_eq_length.2 fun b hb => by
      simpa using List.findIdx?_eq_none_iff.1 hfind b hb
    rw [hlength, List.take_length, List.drop_length]
    rfl
  | some i => rw [List.findIdx?_eq_some_iff_findIdx_eq.1 hfind |>.2]

theorem split_fst (line : List UInt8) : (split (trim line)).1 = firstWord line := by
  rw [split_eq]
  rfl

theorem head?_split_snd (t : List UInt8) : ∀ b ∈ (split t).2.head?, isspace b = false := by
  rw [split_eq]
  exact head?_trimBy _

theorem split_word {word rest : List UInt8} {separator : UInt8}
    (hword : ∀ b ∈ word, isSeparator b = false) (hseparator : isSeparator separator = true) :
    split (word ++ separator :: rest) = (word, trim (separator :: rest)) := by
  have hpos : ∀ b ∈ word, (!isSeparator b) = true := fun b hb => by rw [hword b hb]; rfl
  have hneg : ¬ (fun b => !isSeparator b) separator = true := by simp [hseparator]
  rw [split_eq, List.takeWhile_append_of_pos hpos, List.dropWhile_append_of_pos hpos,
    List.takeWhile_cons_of_neg (p := fun b => !isSeparator b) hneg,
    List.dropWhile_cons_of_neg (p := fun b => !isSeparator b) hneg, List.append_nil]

/-- The letters of a word are not white space. -/
theorem not_isspace_of_toLower {word : List UInt8} (h : toLower word = text "run") :
    ∀ b ∈ word, isspace b = false := by
  intro b hb
  have hmem : tolower b ∈ text "run" := h ▸ List.mem_map_of_mem hb
  by_contra hspace
  rw [Bool.not_eq_false] at hspace
  have hkept : tolower b = b := by
    refine if_neg fun hupper => ?_
    have hge : 65 ≤ b.toNat := hupper.1
    rcases of_decide_eq_true hspace with rfl | ⟨-, hle⟩
    · exact absurd hge (by decide)
    · have hle' : b.toNat ≤ 13 := hle
      omega
  rw [hkept] at hmem
  rcases List.mem_cons.1 hmem with rfl | hmem
  · exact absurd hspace (by decide)
  rcases List.mem_cons.1 hmem with rfl | hmem
  · exact absurd hspace (by decide)
  obtain rfl := List.mem_singleton.1 hmem
  exact absurd hspace (by decide)

theorem split_runLine {word blanks digits : List UInt8} {separator : UInt8}
    (hword : toLower word = text "run") (hseparator : isSeparator separator = true)
    (hblanks : ∀ b ∈ blanks, isspace b = true) (hne : digits ≠ [])
    (hdigits : ∀ b ∈ digits, isdigit b = true) :
    split (word ++ separator :: (blanks ++ digits)) = (word, digits) := by
  have hspaces : ∀ b ∈ separator :: blanks, isspace b = true := by
    intro b hb
    rcases List.mem_cons.1 hb with rfl | hb
    · exact isspace_of_isSeparator hseparator
    · exact hblanks b hb
  have htrim : trim (separator :: blanks ++ digits ++ []) = digits :=
    trimBy_eq hspaces (fun _ hb => absurd hb List.not_mem_nil) hne
      (not_isspace_of_isdigit (hdigits _ (List.head_mem hne)))
      (not_isspace_of_isdigit (hdigits _ (List.getLast_mem hne)))
  rw [List.append_nil, List.cons_append] at htrim
  rw [split_word (fun b hb => ?_) hseparator, htrim]
  by_contra hb'
  have hspace := isspace_of_isSeparator (Bool.not_eq_false _ ▸ hb')
  rw [not_isspace_of_toLower hword b hb] at hspace
  exact Bool.false_ne_true hspace

theorem trim_runLine {before word blanks digits after : List UInt8} {separator : UInt8}
    (hbefore : ∀ b ∈ before, isspace b = true) (hafter : ∀ b ∈ after, isspace b = true)
    (hword : toLower word = text "run") (hne : digits ≠ [])
    (hdigits : ∀ b ∈ digits, isdigit b = true) :
    trim (before ++ (word ++ separator :: (blanks ++ digits)) ++ after) =
      word ++ separator :: (blanks ++ digits) := by
  have hnonempty : word ≠ [] := by
    rintro rfl
    exact absurd hword (by decide)
  refine trimBy_eq hbefore hafter (List.append_ne_nil_of_left_ne_nil hnonempty _) ?_ ?_
  · rw [List.head_append_of_ne_nil hnonempty]
    exact not_isspace_of_toLower hword _ (List.head_mem _)
  · have hlast : (word ++ separator :: (blanks ++ digits)).getLast
        (List.append_ne_nil_of_left_ne_nil hnonempty _) = digits.getLast hne := by
      simp [List.getLast_cons, hne]
    rw [hlast]
    exact not_isspace_of_isdigit (hdigits _ (List.getLast_mem hne))

/-- The lines that are accepted are those with the word `run` and a number. -/
theorem runLine_iff (line : List UInt8) (n : UInt64) :
    RunLine line n.toNat ∧ 1 ≤ n.toNat ↔
      toLower (firstWord line) = text "run" ∧ Count (split (trim line)).2 n := by
  constructor
  · rintro ⟨⟨before, word, separator, blanks, digits, after, rfl, hbefore, hafter, hword,
      hseparator, hblanks, hne, hdigits, hvalue⟩, hn⟩
    have hsplit := split_runLine hword hseparator hblanks hne hdigits
    rw [← split_fst, trim_runLine hbefore hafter hword hne hdigits, hsplit]
    exact ⟨hword, hne, hdigits, hvalue, hn⟩
  · rintro ⟨hword, hcount⟩
    obtain ⟨before, after, hline, hbefore, hafter⟩ := exists_trimBy (p := isspace) line
    rw [split_eq] at hcount
    obtain ⟨blanks, spaces, hrest, hblanks, hspaces⟩ :=
      exists_trimBy (p := isspace) ((trim line).dropWhile fun b => !isSeparator b)
    have hsplit : firstWord line ++ (trim line).dropWhile (fun b => !isSeparator b) = trim line :=
      List.takeWhile_append_dropWhile
    have hhead := List.head?_dropWhile_not (fun b => !isSeparator b) (trim line)
    generalize (trim line).dropWhile (fun b => !isSeparator b) = rest at *
    change Count (trim rest) n at hcount
    obtain ⟨d, ds, hargs⟩ := List.exists_cons_of_ne_nil hcount.ne_nil
    have hdigit : isdigit d = true := hcount.digits d (hargs ▸ List.mem_cons_self)
    change rest = blanks ++ trim rest ++ spaces at hrest
    cases blanks with
    | nil =>
      -- the rest begins with a separator, which is not a digit
      rw [hrest, hargs] at hhead
      have hspace : isspace d = true := isspace_of_isSeparator (by simpa using hhead)
      rw [not_isspace_of_isdigit hdigit] at hspace
      cases hspace
    | cons separator blanks =>
      have hseparator : isSeparator separator = true := by
        rw [hrest] at hhead
        simpa using hhead
      refine ⟨⟨before, firstWord line, separator, blanks, trim rest, spaces ++ after, ?_, hbefore,
        fun b hb => ?_, hword, hseparator,
        fun b hb => hblanks b (List.mem_cons_of_mem _ hb), hcount.ne_nil, hcount.digits,
        hcount.value⟩, hcount.pos⟩
      · calc line = before ++ trim line ++ after := hline
          _ = before ++ (firstWord line ++ (separator :: blanks ++ trim rest ++ spaces)) ++
              after := by rw [← hrest, hsplit]
          _ = _ := by simp
      · rcases List.mem_append.1 hb with hb | hb
        · exact hspaces b hb
        · exact hafter b hb

/-- With a digit in front the arguments are a number iff all of them are converted. -/
theorem count_iff {d : UInt8} (hd : isdigit d = true) (ds : List UInt8) (n : UInt64) :
    Count (d :: ds) n ↔ stoull (d :: ds) 10 = .ok (n, (d :: ds).length) ∧ n ≠ 0 := by
  have hpos : 1 ≤ n.toNat ↔ n ≠ 0 := by
    rw [Nat.one_le_iff_ne_zero, ne_eq, ne_eq, ← UInt64.toNat_inj]
    rfl
  rw [stoull_decimal hd]
  constructor
  · rintro ⟨-, hdigits, hvalue, hn⟩
    have hfits : ¬ 2 ^ 64 ≤ value 10 (d :: ds) := by
      rw [hvalue]
      exact not_le.2 n.toNat_lt
    rw [List.takeWhile_eq_self_iff.2 hdigits, if_neg hfits, hvalue, UInt64.ofNat_toNat]
    exact ⟨rfl, hpos.1 hn⟩
  · rintro ⟨hread, hn⟩
    by_cases hfits : 2 ^ 64 ≤ value 10 ((d :: ds).takeWhile isdigit)
    · rw [if_pos hfits] at hread
      cases hread
    rw [if_neg hfits] at hread
    obtain ⟨hvalue, hlength⟩ := Prod.mk.inj (Except.ok.inj hread)
    have hall : (d :: ds).takeWhile isdigit = d :: ds :=
      (List.takeWhile_prefix isdigit).eq_of_length hlength
    rw [hall] at hvalue hfits
    refine ⟨List.cons_ne_nil _ _, List.takeWhile_eq_self_iff.1 hall, ?_, hpos.2 hn⟩
    rw [← hvalue, UInt64.toNat_ofNat_of_lt' (not_le.1 hfits)]

/-! ### Commands -/

section

variable {σ Cb H R : Type} (m : Monitor σ Cb H R)

/-- A call of the CPU, which is recorded. -/
def callCPU (cpu : CPU σ Cb) (call : CPUCall) : Method (Session σ) Unit := fun s =>
  let called := (cpu.call call).call s.system
  (called.1, { s with system := called.2, calls := s.calls ++ [call] })

/-- `reset` at the monitor. -/
def handleReset : Method (Session σ) Unit :=
  match m.cpu with
  | none => print "No CPU attached to reset.\n"
  | some cpu => do
    callCPU cpu .reset
    print "Simulator reset.\n"

/-- `step` at the monitor. -/
def handleStep : Method (Session σ) Unit :=
  match m.cpu with
  | none => print "No CPU attached to step.\n"
  | some cpu => do
    callCPU cpu .step
    let s ← get
    write (text "Stepped 1 cycle. Current cycle: " ++ dec (cpu.cycleCount s.system).toNat ++
      text "\n")

/-- The answer to a count that is not one. -/
def invalidCount (args : List UInt8) : Method (Session σ) Unit :=
  write (text "Invalid cycle count: '" ++ args ++ text "'. Must be a positive integer.\n")

/-- `run <cycles>` at the monitor. -/
def handleRun (args : List UInt8) : Method (Session σ) Unit :=
  match m.cpu with
  | none => print "No CPU attached to run.\n"
  | some cpu =>
    if args = [] then print "Usage: run <cycles>\n"
    else
      -- `find_first_not_of(" \t")`
      let firstNonSpace := args.find? fun b => !isSeparator b
      if ¬ firstNonSpace.any isdigit then invalidCount args
      else
        match stoull args 10 with
        | .error _ => invalidCount args
        | .ok (cycles, pos) =>
          if pos ≠ args.length ∨ cycles = 0 then invalidCount args
          else do
            callCPU cpu (.run cycles)
            let s ← get
            write (text "Ran " ++ dec cycles.toNat ++ text " cycles. Total cycle count: " ++
              dec (cpu.cycleCount s.system).toNat ++ text "\n")

/-- The part of `executeCommand` that selects the command. -/
def dispatch (cmdWord args : List UInt8) : Method (Session σ) Bool :=
  let cmd := toLower cmdWord
  if cmd = text "help" then do
    printHelp
    return true
  else if cmd = text "exit" ∨ cmd = text "quit" then do
    print "Exiting monitor.\n"
    return false
  else if cmd = text "reset" then do
    m.handleReset
    return true
  else if cmd = text "step" then do
    m.handleStep
    return true
  else if cmd = text "run" then do
    m.handleRun args
    return true
  else if cmd = text "regs" then do
    m.printRegs
    return true
  else if cmd = text "gpio" then do
    m.printGPIO
    return true
  else if cmd = text "timer" then do
    m.printTimer
    return true
  else if cmd = text "interrupts" then do
    m.printInterrupts
    return true
  else if cmd = text "memory" then do
    m.printMemory args
    return true
  else if cmd = text "mmio" then do
    m.printMMIO
    return true
  else if cmd = text "uart" then do
    m.printUART
    return true
  else if cmd = text "clock" then do
    m.printClock
    return true
  else if cmd = text "events" then do
    m.printEvents
    return true
  else do
    write (text "Unknown command: '" ++ cmdWord ++
      text "'. Type 'help' for supported commands.\n")
    return true

/-- `executeCommand()`: whether the session goes on. -/
def executeCommand (commandLine : List UInt8) : Method (Session σ) Bool :=
  let trimmed := trim commandLine
  if trimmed = [] then return true
  else m.dispatch (split trimmed).1 (split trimmed).2

variable {m} {cpu : CPU σ Cb} {args cmdWord : List UInt8} {s : Session σ}

theorem handleRun_of_count (hcpu : m.cpu = some cpu) {n : UInt64} (h : Count args n) :
    m.handleRun args = (do
      callCPU cpu (.run n)
      let s ← get
      write (text "Ran " ++ dec n.toNat ++ text " cycles. Total cycle count: " ++
        dec (cpu.cycleCount s.system).toNat ++ text "\n")) := by
  obtain ⟨d, ds, rfl⟩ := List.exists_cons_of_ne_nil h.ne_nil
  have hd : isdigit d = true := h.digits d List.mem_cons_self
  obtain ⟨hread, hn⟩ := (count_iff hd ds n).1 h
  have hfirst : (d :: ds).find? (fun b => !isSeparator b) = some d :=
    List.find?_cons_of_pos (not_isSeparator (not_isspace_of_isdigit hd))
  have hok : ¬ ((d :: ds).length ≠ (d :: ds).length ∨ n = 0) := not_or.2 ⟨not_not.2 rfl, hn⟩
  rw [handleRun, hcpu]
  dsimp only
  rw [if_neg h.ne_nil, hfirst, Option.any_some, if_neg (not_not.2 hd), hread]
  exact if_neg hok

/-- Without a count nothing is run. -/
theorem onlyPrints_handleRun (hcpu : m.cpu = some cpu)
    (hhead : ∀ b ∈ args.head?, isspace b = false) (h : ∀ n, ¬ Count args n) :
    OnlyPrints (m.handleRun args) := by
  rw [handleRun, hcpu]
  cases args with
  | nil => exact onlyPrints_print _
  | cons d ds =>
    have hfirst : (d :: ds).find? (fun b => !isSeparator b) = some d :=
      List.find?_cons_of_pos (not_isSeparator (hhead d rfl))
    dsimp only
    rw [if_neg (List.cons_ne_nil d ds), hfirst, Option.any_some]
    by_cases hd : isdigit d = true
    · rw [if_neg (not_not.2 hd)]
      cases hread : stoull (d :: ds) 10 with
      | error e => exact onlyPrints_write _
      | ok r =>
        by_cases hrefused : r.2 ≠ (d :: ds).length ∨ r.1 = 0
        · dsimp only
          rw [if_pos hrefused]
          exact onlyPrints_write _
        · obtain ⟨hlength, hn⟩ := not_or.1 hrefused
          rw [not_not] at hlength
          exact absurd ((count_iff hd ds r.1).2 ⟨hlength ▸ hread, hn⟩) (h r.1)
    · rw [if_pos hd]
      exact onlyPrints_write _

/-- The statement makes this call of the CPU, whether it throws or not. -/
def Makes {α : Type} (call : CPUCall) (x : Method (Session σ) α) : Prop :=
  ∀ s, (x.call s).2.calls = s.calls ++ [call]

theorem makes_callCPU (call : CPUCall) : Makes call (callCPU cpu call) := fun _ => rfl

theorem Makes.bind {α β : Type} {call : CPUCall} {x : Method (Session σ) α}
    {f : α → Method (Session σ) β} (hx : Makes call x) (hf : ∀ a, OnlyPrints (f a)) :
    Makes call (x >>= f) := by
  intro s
  have hs := hx s
  rw [Method.call_bind]
  cases hcall : x.call s with
  | mk r s' =>
    rw [hcall] at hs
    cases r with
    | ok a => exact (congrArg Prod.snd (hf a s')).trans hs
    | error e => exact hs

theorem dispatch_run (h : toLower cmdWord = text "run") :
    m.dispatch cmdWord args = (do
      m.handleRun args
      return true) := by
  rw [dispatch, h]
  rfl

theorem makes_dispatch_run (hcpu : m.cpu = some cpu) (h : toLower cmdWord = text "run")
    {n : UInt64} (hcount : Count args n) : Makes (.run n) (m.dispatch cmdWord args) := by
  rw [dispatch_run h, handleRun_of_count hcpu hcount]
  refine .bind (.bind (makes_callCPU _) fun _ => ?_) fun _ => .pure _
  exact .get_bind fun _ => onlyPrints_write _

theorem makes_dispatch_step (hcpu : m.cpu = some cpu) (h : toLower cmdWord = text "step") :
    Makes .step (m.dispatch cmdWord args) := by
  have heq : m.dispatch cmdWord args = (do
      m.handleStep
      return true) := by
    rw [dispatch, h]
    rfl
  rw [heq, handleStep, hcpu]
  refine .bind (.bind (makes_callCPU _) fun _ => ?_) fun _ => .pure _
  exact .get_bind fun _ => onlyPrints_write _

theorem makes_dispatch_reset (hcpu : m.cpu = some cpu) (h : toLower cmdWord = text "reset") :
    Makes .reset (m.dispatch cmdWord args) := by
  have heq : m.dispatch cmdWord args = (do
      m.handleReset
      return true) := by
    rw [dispatch, h]
    rfl
  rw [heq, handleReset, hcpu]
  exact .bind (.bind (makes_callCPU _) fun _ => onlyPrints_print _) fun _ => .pure _

/-- The other commands only print. -/
theorem onlyPrints_dispatch (hrun : toLower cmdWord ≠ text "run")
    (hstep : toLower cmdWord ≠ text "step") (hreset : toLower cmdWord ≠ text "reset") :
    OnlyPrints (m.dispatch cmdWord args) := by
  unfold dispatch
  dsimp only
  rw [if_neg hreset, if_neg hstep, if_neg hrun]
  refine .ite (.bind onlyPrints_printHelp fun _ => .pure _) ?_
  refine .ite (.bind (onlyPrints_print _) fun _ => .pure _) ?_
  refine .ite (.bind m.onlyPrints_printRegs fun _ => .pure _) ?_
  refine .ite (.bind m.onlyPrints_printGPIO fun _ => .pure _) ?_
  refine .ite (.bind m.onlyPrints_printTimer fun _ => .pure _) ?_
  refine .ite (.bind m.onlyPrints_printInterrupts fun _ => .pure _) ?_
  refine .ite (.bind (m.onlyPrints_printMemory args) fun _ => .pure _) ?_
  refine .ite (.bind m.onlyPrints_printMMIO fun _ => .pure _) ?_
  refine .ite (.bind m.onlyPrints_printUART fun _ => .pure _) ?_
  refine .ite (.bind m.onlyPrints_printClock fun _ => .pure _) ?_
  refine .ite (.bind m.onlyPrints_printEvents fun _ => .pure _) ?_
  exact .bind (onlyPrints_write _) fun _ => .pure _

/-- The monitor does not exit. -/
def Stays (x : Method (Session σ) Bool) : Prop := ∀ s, (x.call s).1 ≠ .ok false

theorem stays_bind (x : Method (Session σ) Unit) : Stays (x >>= fun _ => pure true) := by
  intro s
  rw [Method.call_bind]
  rcases x.call s with ⟨_ | _, s'⟩ <;> exact nofun

theorem Stays.ite {c : Prop} [Decidable c] {x y : Method (Session σ) Bool} (hx : Stays x)
    (hy : Stays y) : Stays (if c then x else y) := by
  split_ifs
  · exact hx
  · exact hy

theorem stays_dispatch (h : ¬ (toLower cmdWord = text "exit" ∨ toLower cmdWord = text "quit")) :
    Stays (m.dispatch cmdWord args) := by
  unfold dispatch
  dsimp only
  rw [if_neg h]
  iterate 13 refine .ite (stays_bind _) ?_
  exact stays_bind _

theorem onlyPrints_dispatch_run (hcpu : m.cpu = some cpu) (hword : toLower cmdWord = text "run")
    (hhead : ∀ b ∈ args.head?, isspace b = false) (h : ∀ n, ¬ Count args n) :
    OnlyPrints (m.dispatch cmdWord args) := by
  rw [dispatch_run hword]
  exact .bind (onlyPrints_handleRun hcpu hhead h) fun _ => .pure _

theorem dispatch_exit (h : toLower cmdWord = text "exit" ∨ toLower cmdWord = text "quit") :
    ((m.dispatch cmdWord args).call s).1 = .ok false := by
  have hhelp : toLower cmdWord ≠ text "help" := by rcases h with h | h <;> rw [h] <;> decide
  rw [dispatch, if_neg hhelp, if_pos h]
  rfl

theorem executeCommand_empty {line : List UInt8} (h : trim line = []) :
    m.executeCommand line = pure true ∧ firstWord line = [] := by
  refine ⟨if_pos h, ?_⟩
  rw [firstWord, h]
  rfl

theorem executeCommand_dispatch {line : List UInt8} (h : trim line ≠ []) :
    m.executeCommand line = m.dispatch (firstWord line) (split (trim line)).2 :=
  (if_neg h).trans (by rw [split_fst])

/-- **The commands.**  `CPU::run` is called exactly for the lines that say `run` and a number of
cycles, other lines change nothing unless they say `step` or `reset`, and the monitor exits exactly
for `exit` and `quit`. -/
theorem executeCommand_calls (hcpu : m.cpu = some cpu) (line : List UInt8) (s : Session σ) :
    let called := (m.executeCommand line).call s
    let word := toLower (firstWord line)
    (∃ calls, called.2.calls = s.calls ++ calls ∧ ∀ n : UInt64,
      (RunLine line n.toNat ∧ 1 ≤ n.toNat → calls = [.run n]) ∧
        (.run n ∈ calls → RunLine line n.toNat ∧ 1 ≤ n.toNat)) ∧
      ((∀ n : UInt64, ¬ (RunLine line n.toNat ∧ 1 ≤ n.toNat)) → word ≠ text "step" →
        word ≠ text "reset" → called.2.system = s.system) ∧
      (called.1 = .ok false ↔ word = text "exit" ∨ word = text "quit") := by
  intro called word
  simp only [runLine_iff]
  change (∃ calls, _ ∧ ∀ n : UInt64, (word = text "run" ∧ _ → _) ∧ _) ∧ _
  by_cases hempty : trim line = []
  · obtain ⟨hcommand, hfirst⟩ := executeCommand_empty (m := m) hempty
    have hcalled : called = (.ok true, s) := by
      rw [show called = (m.executeCommand line).call s from rfl, hcommand]
      rfl
    have hword : word = [] := congrArg toLower hfirst
    rw [hcalled, hword]
    exact ⟨⟨[], (List.append_nil _).symm, fun n => ⟨fun h => absurd h.1 (by decide), nofun⟩⟩,
      fun _ _ _ => rfl, iff_of_false nofun (by decide)⟩
  have hcalled : called = (m.dispatch (firstWord line) (split (trim line)).2).call s := by
    rw [← executeCommand_dispatch hempty]
  have hexit : called.1 = .ok false ↔ word = text "exit" ∨ word = text "quit" := by
    rw [hcalled]
    exact ⟨fun h => by_contra fun hne => stays_dispatch hne s h, dispatch_exit⟩
  -- a command that only prints makes no call
  have hprints (h : OnlyPrints (m.dispatch (firstWord line) (split (trim line)).2)) :
      called.2.system = s.system ∧ called.2.calls = s.calls ++ [] := by
    rw [hcalled, List.append_nil]
    exact Prod.mk.inj (h s)
  by_cases hrun : word = text "run"
  · by_cases hcount : ∃ n, Count (split (trim line)).2 n
    · obtain ⟨n, hn⟩ := hcount
      have hmade := hcalled ▸ makes_dispatch_run hcpu hrun hn s
      have hunique (n' : UInt64) (hn' : Count (split (trim line)).2 n') : n' = n :=
        UInt64.toNat_inj.1 (hn'.value.symm.trans hn.value)
      refine ⟨⟨[.run n], hmade, fun n' => ⟨fun h => by rw [hunique n' h.2], fun h => ?_⟩⟩,
        fun hno => absurd ⟨hrun, hn⟩ (hno n), hexit⟩
      obtain rfl : n' = n := CPUCall.run.inj (List.mem_singleton.1 h)
      exact ⟨hrun, hn⟩
    · rw [not_exists] at hcount
      obtain ⟨hsystem, hcalls⟩ :=
        hprints (onlyPrints_dispatch_run hcpu hrun (head?_split_snd _) hcount)
      exact ⟨⟨[], hcalls, fun n => ⟨fun h => absurd h.2 (hcount n), nofun⟩⟩,
        fun _ _ _ => hsystem, hexit⟩
  by_cases hstep : word = text "step"
  · have hmade := hcalled ▸ makes_dispatch_step hcpu hstep s
    exact ⟨⟨[.step], hmade, fun n => ⟨fun h => absurd h.1 hrun, fun h => by simp at h⟩⟩,
      fun _ hne => absurd hstep hne, hexit⟩
  by_cases hreset : word = text "reset"
  · have hmade := hcalled ▸ makes_dispatch_reset hcpu hreset s
    exact ⟨⟨[.reset], hmade, fun n => ⟨fun h => absurd h.1 hrun, fun h => by simp at h⟩⟩,
      fun _ _ hne => absurd hreset hne, hexit⟩
  · obtain ⟨hsystem, hcalls⟩ := hprints (onlyPrints_dispatch hrun hstep hreset)
    exact ⟨⟨[], hcalls, fun n => ⟨fun h => absurd h.1 hrun, nofun⟩⟩, fun _ _ _ => hsystem, hexit⟩

/-- A monitor of a counter of cycles. -/
def counterMonitor : Monitor UInt64 Empty Empty Empty where
  cpu := some
    { call := fun c => modify fun cycles =>
        match c with
        | .reset => 0
        | .step => cycles + 1
        | .run n => cycles + n
      cycleCount := id
      registerFile := fun _ => .reset
      systemBus := fun _ => none }
  memory := none
  mmioBus := none
  gpio := none
  timer := none
  interruptController := none
  uart := none
  clock := none
  scheduler := none

/-- The line ` RUN  007` runs 7 cycles. -/
theorem executeCommand_calls_seven :
    ((counterMonitor.executeCommand (text " RUN \t007\n")).call ⟨3, [], []⟩).2.calls =
      [.run 7] := by
  obtain ⟨⟨calls, hcalls, hrun⟩, -, -⟩ :=
    executeCommand_calls (m := counterMonitor) rfl (text " RUN \t007\n") ⟨3, [], []⟩
  have hline : RunLine (text " RUN \t007\n") 7 :=
    ⟨text " ", text "RUN", 32, text "\t", text "007", text "\n", by decide,
      List.all_eq_true.1 (by decide), List.all_eq_true.1 (by decide), by decide, by decide,
      List.all_eq_true.1 (by decide), by decide, List.all_eq_true.1 (by decide), by decide⟩
  rw [hcalls, (hrun 7).1 ⟨hline, by decide⟩]
  rfl

end

end Monitor

end EFS
