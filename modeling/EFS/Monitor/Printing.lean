import EFS.Cpu.RegisterFile
import EFS.Data.Method
import EFS.Data.Numerals
import EFS.Drivers.Gpio
import EFS.Drivers.Timer
import EFS.Drivers.Uart
import EFS.Kernel.InterruptController
import EFS.Memory
import EFS.Mmio.Bus
import EFS.System.ElapsedTime
import EFS.System.EventScheduler

/-!
# What the monitor prints

A `Monitor` has pointers to parts of a simulator, any of which may be null.  Its states are `σ`, and
a pointer to a part that is only read is the function that reads it.

`onlyPrints_printMemory` and the others: the functions that print a part change nothing but the
output.
-/

namespace EFS

namespace Monitor

open EFS.Bytes EFS.Cpu EFS.Drivers EFS.Kernel EFS.Mmio EFS.System

/-- The calls of the CPU that a monitor makes. -/
inductive CPUCall
  | reset
  | step
  | run (cycles : UInt64)
  deriving DecidableEq

/-- What a monitor sees of a CPU. -/
structure CPU (σ Cb : Type) where
  call : CPUCall → Method σ Unit
  cycleCount : σ → UInt64
  registerFile : σ → RegisterFile
  /-- The clock and the scheduler of `systemBus()`, unless that is null. -/
  systemBus : σ → Option (FrequencyClock × EventScheduler Cb)

end Monitor

open EFS.Bytes EFS.Cpu EFS.Drivers EFS.Kernel EFS.Mmio EFS.System

/-- What is attached to a monitor, as views of the simulated system; `none` is a null pointer. -/
structure Monitor (σ Cb H R : Type) where
  cpu : Option (Monitor.CPU σ Cb)
  memory : Option (σ → Memory)
  mmioBus : Option (σ → MappedRegisters R)
  gpio : Option (σ → GPIO)
  /-- The timer and its base address. -/
  timer : Option (σ → Address × Timer)
  /-- The interrupt controller and its base address. -/
  interruptController : Option (σ → Address × InterruptController H)
  uart : Option (σ → UART)
  clock : Option (σ → FrequencyClock)
  scheduler : Option (σ → EventScheduler Cb)

namespace Monitor

/-- A simulator under a monitor. -/
structure Session (σ : Type) where
  system : σ
  /-- The calls that the CPU has received, the first one first. -/
  calls : List CPUCall
  output : List UInt8

variable {σ Cb H R : Type} (m : Monitor σ Cb H R)

/-! ### Output -/

/-- `output << ...`. -/
def write (bytes : List UInt8) : Method (Session σ) Unit :=
  modify fun s => { s with output := s.output ++ bytes }

/-- `output << s`, for a string literal. -/
def print (s : String) : Method (Session σ) Unit := write (text s)

/-- `std::dec`. -/
def dec (n : ℕ) : List UInt8 := numeral 10 n

/-- `std::hex`. -/
def hex (n : ℕ) : List UInt8 := numeral 16 n

/-- `std::hex << std::setw(width) << std::setfill('0')`. -/
def hexWidth (width n : ℕ) : List UInt8 := padded 16 width n

/-- A flag, as the tables print it. -/
def yesNo (b : Bool) : List UInt8 := text (if b then "YES" else "NO")

/-- The statement changes nothing but the output. -/
def OnlyPrints {α : Type} (x : Method (Session σ) α) : Prop :=
  x.Keeps fun s => (s.system, s.calls)

theorem onlyPrints_write (bytes : List UInt8) :
    OnlyPrints (write bytes : Method (Session σ) Unit) :=
  .modifying fun _ => rfl

theorem onlyPrints_print (s : String) : OnlyPrints (print s : Method (Session σ) Unit) :=
  onlyPrints_write _

/-! ### Parts of the simulator -/

/-- `printHelp()`. -/
def printHelp : Method (Session σ) Unit :=
  write (text "Supported commands:\n" ++
    text "  help                  Display all supported commands.\n" ++
    text "  exit                  Exit the monitor.\n" ++
    text "  reset                 Reset the simulator.\n" ++
    text "  step                  Execute exactly one CPU cycle.\n" ++
    text "  run <cycles>          Execute N CPU cycles.\n" ++
    text "  regs                  Display PC, SP, Status, and R0-R15.\n" ++
    text "  gpio                  Display GPIO peripheral state.\n" ++
    text "  timer                 Display timer peripheral state.\n" ++
    text "  interrupts            Display interrupt controller status.\n" ++
    text "  memory <addr> <cnt>   Display memory bytes in hex.\n" ++
    text "  mmio                  Display all registered MMIO addresses.\n" ++
    text "  uart                  Display UART peripheral state.\n" ++
    text "  clock                 Display simulation clock state.\n" ++
    text "  events                Display pending scheduled events.\n")

theorem onlyPrints_printHelp : OnlyPrints (printHelp : Method (Session σ) Unit) :=
  onlyPrints_write _

/-- The row of a general register. -/
def printRegister (rf : RegisterFile) (i : ℕ) : Method (Session σ) Unit := do
  let value ← Method.ofExcept (rf.readRegister i)
  write (text "R" ++ dec i ++ text (if i < 10 then ":  " else ": ") ++ text "0x" ++
    hexWidth 8 value.toNat ++ text (if i % 4 = 3 then "\n" else "\t"))

/-- `printRegs()`. -/
def printRegs : Method (Session σ) Unit :=
  match m.cpu with
  | none => print "No CPU attached.\n"
  | some cpu => do
    let rf := cpu.registerFile (← get).system
    write (text "=== CPU Registers ===\nPC:     0x" ++ hexWidth 8 rf.pc.toNat ++
      text "\nSP:     0x" ++ hexWidth 8 rf.sp.toNat ++
      text "\nStatus: 0x" ++ hexWidth 8 rf.sr.toNat ++ text "\n")
    (List.range numGprs).forM (printRegister rf)

theorem onlyPrints_printRegs : OnlyPrints m.printRegs := by
  unfold printRegs
  cases m.cpu with
  | none => exact onlyPrints_print _
  | some cpu =>
    refine .get_bind fun s => .bind (onlyPrints_write _) fun _ => .forM fun i => ?_
    exact .bind (.ofExcept _) fun _ => onlyPrints_write _

/-- The row of a pin. -/
def printPin (g : GPIO) (i : ℕ) : Method (Session σ) Unit := do
  let state ← Method.ofExcept (g.readPin (.ofNat i))
  write (text "  Pin " ++ dec i ++ text ": " ++ text (if state = .high then "HIGH" else "LOW") ++
    text "\n")

/-- `printGPIO()`. -/
def printGPIO : Method (Session σ) Unit :=
  match m.gpio with
  | none => print "No GPIO attached.\n"
  | some gpio => do
    let g := gpio (← get).system
    write (text "=== GPIO Peripheral State ===\nBase Address: 0x" ++ hex g.baseAddress.toNat ++
      text "\n")
    (List.range 8).forM (printPin g)

theorem onlyPrints_printGPIO : OnlyPrints m.printGPIO := by
  unfold printGPIO
  cases m.gpio with
  | none => exact onlyPrints_print _
  | some gpio =>
    refine .get_bind fun s => .bind (onlyPrints_write _) fun _ => .forM fun i => ?_
    exact .bind (.ofExcept _) fun _ => onlyPrints_write _

/-- `printTimer()`. -/
def printTimer : Method (Session σ) Unit :=
  match m.timer with
  | none => print "No Timer attached.\n"
  | some timer => do
    let (baseAddress, t) := timer (← get).system
    write (text "=== Timer Peripheral State ===\nBase Address: 0x" ++ hex baseAddress.toNat ++
      text "\nRunning:      " ++ yesNo t.running ++
      text "\nCounter:      " ++ dec t.counter.toNat ++
      text "\nCompare:      " ++ dec t.compare.toNat ++
      text "\nMatch Flag:   " ++ text (if t.hasMatch then "SET" else "CLEARED") ++ text "\n")

theorem onlyPrints_printTimer : OnlyPrints m.printTimer := by
  unfold printTimer
  cases m.timer with
  | none => exact onlyPrints_print _
  | some timer => exact .get_bind fun s => onlyPrints_write _

/-- The row of an interrupt line, if it is registered. -/
def printInterrupt (ic : InterruptController H) (i : ℕ) : Method (Session σ) Unit :=
  let id := UInt8.ofNat i
  if ¬ ic.isRegistered id then return
  else do
    let enabled ← Method.ofExcept (ic.enabled id)
    let pending ← Method.ofExcept (ic.pending id)
    let priority ← Method.ofExcept (ic.getPriority id)
    write (text "  IRQ " ++ dec i ++ text " | Enabled: " ++ yesNo enabled ++
      text " | Pending: " ++ yesNo pending ++ text " | Priority: " ++ dec priority.toNat ++
      text "\n")

theorem onlyPrints_printInterrupt (ic : InterruptController H) (i : ℕ) :
    OnlyPrints (printInterrupt ic i : Method (Session σ) Unit) := by
  unfold printInterrupt
  dsimp only
  split_ifs
  · refine .bind (.ofExcept _) fun _ => .bind (.ofExcept _) fun _ => .bind (.ofExcept _) fun _ => ?_
    exact onlyPrints_write _
  · exact .pure _

/-- `printInterrupts()`. -/
def printInterrupts : Method (Session σ) Unit :=
  match m.interruptController with
  | none => print "No Interrupt Controller attached.\n"
  | some interruptController => do
    let (baseAddress, ic) := interruptController (← get).system
    write (text "=== Interrupt Controller Status ===\nBase Address: 0x" ++ hex baseAddress.toNat ++
      text "\n")
    (List.range maxInterrupts).forM (printInterrupt ic)

theorem onlyPrints_printInterrupts : OnlyPrints m.printInterrupts := by
  unfold printInterrupts
  cases m.interruptController with
  | none => exact onlyPrints_print _
  | some interruptController =>
    refine .get_bind fun s => .bind (onlyPrints_write _) fun _ => .forM fun i => ?_
    exact onlyPrints_printInterrupt _ i

/-- What comes before the byte `i`. -/
def dumpHeader (addr : Address) (i : ℕ) : List UInt8 :=
  if i % 16 = 0 then
    text (if 0 < i then "\n" else "") ++ text "0x" ++ hexWidth 8 addr.toNat ++ text ": "
  else []

/-- The loop of `printMemory`, from the byte `i` on. -/
def dump (memory : Memory) (startAddr : Address) : ℕ → ℕ → Method (Session σ) Unit
  | 0, _ => return
  | n + 1, i =>
    let addr := startAddr + .ofNat i
    if ¬ memory.isValidAddress addr then
      write (text "\nMemory read out of bounds at address 0x" ++ hex addr.toNat ++ text "\n")
    else do
      write (dumpHeader addr i)
      let byte ← Method.ofExcept (memory.read addr)
      write (hexWidth 2 byte.toNat ++ text " ")
      dump memory startAddr n (i + 1)

theorem onlyPrints_dump (memory : Memory) (startAddr : Address) (n i : ℕ) :
    OnlyPrints (dump memory startAddr n i : Method (Session σ) Unit) := by
  induction n generalizing i with
  | zero => exact .pure _
  | succ n ih =>
    unfold dump
    dsimp only
    by_cases hvalid : memory.isValidAddress (startAddr + .ofNat i) = true
    · rw [if_neg (not_not.2 hvalid)]
      refine .bind (onlyPrints_write _) fun _ => .bind (.ofExcept _) fun _ => ?_
      exact .bind (onlyPrints_write _) fun _ => ih (i + 1)
    · rw [if_pos hvalid]
      exact onlyPrints_write _

/-- The answer to arguments that are not two numbers. -/
def usage : String := "Usage: memory <address> <count>\n"

/-- `iss >> addrStr >> count` : the first word of the arguments and the number after it. -/
def memoryArguments (args : List UInt8) : List UInt8 × Except String UInt64 :=
  let words := args.dropWhile isspace
  let addrStr := words.takeWhile fun b => ¬ isspace b
  (addrStr, (stoull (words.drop addrStr.length) 10).map Prod.fst)

/-- The bytes from an address on, and where they come from. -/
def printBytes (memory : Memory) (startAddr : Address) (count : UInt64) :
    Method (Session σ) Unit := do
  -- the stream is still in hexadecimal mode when the count is printed
  write (text "=== Memory Dump (0x" ++ hex startAddr.toNat ++ text " - " ++ hex count.toNat ++
    text " bytes) ===\n")
  dump memory startAddr count.toNat 0
  print "\n"

/-- `printMemory()`. -/
def printMemory (args : List UInt8) : Method (Session σ) Unit :=
  match m.memory with
  | none => print "No Memory attached.\n"
  | some memory =>
    if args = [] then print usage
    else
      match memoryArguments args with
      | (_, .error _) => print usage
      | (addrStr, .ok count) =>
        if count = 0 then print usage
        else
          match stoull addrStr 0 with
          | .error _ =>
            write (text "Invalid memory address format: '" ++ addrStr ++ text "'\n")
          | .ok (startAddr, _) => do
            printBytes (memory (← get).system) startAddr count

theorem onlyPrints_printMemory (args : List UInt8) : OnlyPrints (m.printMemory args) := by
  unfold printMemory
  cases m.memory with
  | none => exact onlyPrints_print _
  | some memory =>
    dsimp only
    by_cases hargs : args = []
    · rw [if_pos hargs]
      exact onlyPrints_print _
    rw [if_neg hargs]
    rcases memoryArguments args with ⟨addrStr, _ | count⟩
    · exact onlyPrints_print _
    dsimp only
    by_cases hcount : count = 0
    · rw [if_pos hcount]
      exact onlyPrints_print _
    rw [if_neg hcount]
    cases stoull addrStr 0 with
    | error e => exact onlyPrints_write _
    | ok address =>
      refine .get_bind fun s => .bind (onlyPrints_write _) fun _ => ?_
      exact .bind (onlyPrints_dump _ _ _ _) fun _ => onlyPrints_print _

/-- The row of a register. -/
def printMMIORegister (mmioBus : MappedRegisters R) (addr : Address) :
    Method (Session σ) Unit := do
  let value ← Method.ofExcept (mmioBus.read addr)
  write (text "  0x" ++ hexWidth 8 addr.toNat ++ text " (Value: 0x" ++ hexWidth 8 value.toNat ++
    text ")\n")

/-- `printMMIO()`. -/
def printMMIO : Method (Session σ) Unit :=
  match m.mmioBus with
  | none => print "No MMIO Bus attached.\n"
  | some mmioBus => do
    let mmioBus := mmioBus (← get).system
    let addrs := mmioBus.registeredAddresses
    write (text "=== Registered MMIO Addresses (" ++ dec addrs.length ++ text " entries) ===\n")
    addrs.forM (printMMIORegister mmioBus)

theorem onlyPrints_printMMIO : OnlyPrints m.printMMIO := by
  unfold printMMIO
  cases m.mmioBus with
  | none => exact onlyPrints_print _
  | some mmioBus =>
    refine .get_bind fun s => .bind (onlyPrints_write _) fun _ => .forM fun _ => ?_
    exact .bind (.ofExcept _) fun _ => onlyPrints_write _

/-- The number of bytes in a FIFO, as it is printed. -/
def fifoSize (count : ℕ) : List UInt8 := dec count ++ text (if count = 1 then " byte" else " bytes")

/-- `printUART()`. -/
def printUART : Method (Session σ) Unit :=
  match m.uart with
  | none => print "No UART attached.\n"
  | some uart => do
    let u := uart (← get).system
    write (text "UART\n----------------------\nEnabled : " ++ yesNo u.enabled ++
      text "\n\nBaud : " ++ dec u.baudRegister.read.toNat ++
      text "\n\nTX FIFO : " ++ fifoSize u.txFifo.length ++
      text "\n\nRX FIFO : " ++ fifoSize u.rxFifo.length ++
      text "\n\nSTATUS :\n\nTX Empty : " ++ yesNo u.txFifo.isEmpty ++
      text "\n\nRX Available : " ++ yesNo (!u.rxFifo.isEmpty) ++ text "\n")

theorem onlyPrints_printUART : OnlyPrints m.printUART := by
  unfold printUART
  cases m.uart with
  | none => exact onlyPrints_print _
  | some uart => exact .get_bind fun s => onlyPrints_write _

/-- The clock of the monitor, else that of the CPU. -/
def clockPtr (s : σ) : Option FrequencyClock :=
  match m.clock with
  | some clock => some (clock s)
  | none => (m.cpu.bind (·.systemBus s)).map Prod.fst

/-- The scheduler of the monitor, else that of the CPU. -/
def schedPtr (s : σ) : Option (EventScheduler Cb) :=
  match m.scheduler with
  | some scheduler => some (scheduler s)
  | none => (m.cpu.bind (·.systemBus s)).map Prod.snd

/-- A frequency in the largest unit that divides it. -/
def freqStr (freq : ℕ) : List UInt8 :=
  if freq % 1000000 = 0 then dec (freq / 1000000) ++ text " MHz"
  else if freq % 1000 = 0 then dec (freq / 1000) ++ text " kHz"
  else dec freq ++ text " Hz"

/-- `printClock()`. -/
def printClock : Method (Session σ) Unit := do
  match m.clockPtr (← get).system with
  | none => print "No Simulation Clock attached.\n"
  | some clock =>
    write (text "Clock\n---------------------\n\nFrequency : " ++ freqStr clock.frequencyHz.toNat ++
      text "\n\nCycles : " ++ dec clock.cycles.toNat ++
      text "\n\nElapsed : " ++ dec clock.elapsedMicroseconds.toNat ++ text " us\n")

theorem onlyPrints_printClock : OnlyPrints m.printClock := by
  refine .get_bind fun s => ?_
  cases m.clockPtr s.system with
  | none => exact onlyPrints_print _
  | some clock => exact onlyPrints_write _

/-- The row of a pending event. -/
def printEvent (ev : Event Cb) : Method (Session σ) Unit :=
  write (dec ev.id.toNat ++ text "    " ++ dec ev.cycle.toNat ++ text "     " ++
    text (if ev.description = "" then "Unnamed Event" else ev.description) ++ text "\n\n")

/-- `printEvents()`. -/
def printEvents : Method (Session σ) Unit := do
  match m.schedPtr (← get).system with
  | none => print "No Event Scheduler attached.\n"
  | some sched =>
    if sched.pendingEvents.isEmpty then print "No pending events.\n"
    else
      print "Pending Events\n----------------------------\nID   Cycle   Description\n\n"
      sched.pendingEvents.forM printEvent

theorem onlyPrints_printEvents : OnlyPrints m.printEvents := by
  refine .get_bind fun s => ?_
  cases m.schedPtr s.system with
  | none => exact onlyPrints_print _
  | some sched =>
    dsimp only
    split_ifs
    · exact onlyPrints_print _
    · exact .bind (onlyPrints_print _) fun _ => .forM fun _ => onlyPrints_write _

end Monitor

end EFS
