import EFS.Data.Numerals
import EFS.Monitor.Command

/-!
# Reading back what the monitor prints

The dumps of the monitor are texts for people, and readers for them are given here.

* `readDump`, `readNumbers` : the bytes of a memory dump with their addresses; the hexadecimal
  numbers of a text.
* `readDump_executeCommand` : the dump of a part of the memory is read back as that part, up to the
  end of the memory.
* `readNumbers_executeCommand` : so are the registers, of the CPU and on the bus.
-/

namespace EFS

namespace Monitor

open EFS.Bytes EFS.Cpu EFS.Mmio

/-! ### Readers -/

/-- The address in front of a row. -/
def readAddress (w : List UInt8) : Option Address :=
  if w.getLast? = some 58 then (stoull w.dropLast 0).toOption.map Prod.fst else none

/-- The byte that two hexadecimal digits stand for. -/
def readByte (w : List UInt8) : Option UInt8 :=
  if w.all (isDigitOf 16) then some (.ofNat (value 16 w)) else none

/-- The rows of a dump, the next byte being that at the address. -/
def readRows : Address → List (List UInt8) → List (Address × UInt8)
  | _, [] => []
  | addr, w :: ws =>
    match readAddress w with
    | some addr => readRows addr ws
    | none =>
      match readByte w with
      | some byte => (addr, byte) :: readRows (addr + 1) ws
      | none => []

/-- The first line of a dump is its title. -/
def readDump (printed : List UInt8) : List (Address × UInt8) :=
  readRows 0 (words ((printed.dropWhile (· ≠ 10)).drop 1))

/-- The number in a word that begins with `0x`. -/
def readNumber (w : List UInt8) : Option UInt64 :=
  if text "0x" <+: w then (stoull w 0).toOption.map Prod.fst else none

/-- The numbers in a printed text, in order. -/
def readNumbers (printed : List UInt8) : List UInt64 := (words printed).filterMap readNumber

/-! ### What is printed -/

variable {σ Cb H R : Type}

/-- The statement prints this text and does nothing else. -/
def Prints (x : Method (Session σ) PUnit) (s : Session σ) (printed : List UInt8) : Prop :=
  x.call s = (.ok ⟨⟩, { s with output := s.output ++ printed })

theorem prints_write (bytes : List UInt8) (s : Session σ) : Prints (write bytes) s bytes := rfl

theorem Prints.bind {x y : Method (Session σ) PUnit} {s : Session σ} {first rest : List UInt8}
    (hx : Prints x s first)
    (hy : Prints y { s with output := s.output ++ first } rest) :
    Prints (x >>= fun _ => y) s (first ++ rest) := by
  rw [Prints, Method.call_bind_ok _ _ _ _ hx, hy, List.append_assoc]

theorem Prints.get_bind {k : Session σ → Method (Session σ) PUnit} {s : Session σ}
    {printed : List UInt8} (h : Prints (k s) s printed) : Prints (get >>= k) s printed :=
  (Method.call_bind_ok get k s s rfl).trans h

/-- A loop prints what its turns print. -/
theorem Prints.forM {α : Type} {k : α → Method (Session σ) PUnit} {printed : α → List UInt8}
    {l : List α} (h : ∀ a ∈ l, ∀ s, Prints (k a) s (printed a)) (s : Session σ) :
    Prints (l.forM k) s (l.flatMap printed) := by
  induction l generalizing s with
  | nil =>
    show (pure ⟨⟩ : Method (Session σ) PUnit).call s = _
    rw [List.flatMap_nil, List.append_nil]
    rfl
  | cons a l ih =>
    rw [List.flatMap_cons]
    exact (h a List.mem_cons_self s).bind (ih (fun b hb => h b (List.mem_cons_of_mem _ hb)) _)

/-! ### Memory -/

/-- What the loop of `printMemory` prints from the byte `i` on. -/
def dumpText (memory : Memory) (startAddr : Address) : ℕ → ℕ → List UInt8
  | 0, _ => []
  | n + 1, i =>
    let addr := startAddr + .ofNat i
    match memory.read addr with
    | .error _ => text "\nMemory read out of bounds at address 0x" ++ hex addr.toNat ++ text "\n"
    | .ok byte =>
      dumpHeader addr i ++
        (hexWidth 2 byte.toNat ++ text " " ++ dumpText memory startAddr n (i + 1))

/-- The bytes from an address on, until there are `n` of them or the memory ends. -/
def bytesFrom (memory : Memory) : ℕ → Address → List (Address × UInt8)
  | 0, _ => []
  | n + 1, addr =>
    match memory.read addr with
    | .error _ => []
    | .ok byte => (addr, byte) :: bytesFrom memory n (addr + 1)

theorem isValidAddress_iff {memory : Memory} {addr : Address} :
    memory.isValidAddress addr = true ↔ ∃ byte, memory.read addr = .ok byte := by
  rw [Memory.isValidAddress, Memory.read, decide_eq_true_eq]
  by_cases h : addr.toNat < memory.storage.length
  · rw [List.getElem?_eq_getElem h]
    exact iff_of_true h ⟨_, rfl⟩
  · rw [List.getElem?_eq_none (not_lt.1 h)]
    exact iff_of_false h nofun

theorem prints_dump (memory : Memory) (startAddr : Address) (n i : ℕ) (s : Session σ) :
    Prints (dump memory startAddr n i) s (dumpText memory startAddr n i) := by
  induction n generalizing i s with
  | zero =>
    rw [dumpText, Prints, List.append_nil]
    rfl
  | succ n ih =>
    unfold dump dumpText
    dsimp only
    by_cases hvalid : memory.isValidAddress (startAddr + .ofNat i) = true
    · obtain ⟨byte, hbyte⟩ := isValidAddress_iff.1 hvalid
      rw [if_neg (not_not.2 hvalid), hbyte]
      exact (prints_write _ s).bind ((prints_write _ _).bind (ih (i + 1) _))
    · rw [if_pos hvalid]
      cases hread : memory.read (startAddr + .ofNat i) with
      | error e => exact prints_write _ s
      | ok byte => exact absurd (isValidAddress_iff.2 ⟨byte, hread⟩) hvalid

theorem isspace_digits {width n : ℕ} : ∀ b ∈ hexWidth width n, isspace b = false := fun b hb =>
  not_isspace_of_isDigitOf (isDigitOf_padded (by decide) le_rfl width n b hb)

theorem readByte_hexWidth (byte : UInt8) : readByte (hexWidth 2 byte.toNat) = some byte := by
  have hall : (hexWidth 2 byte.toNat).all (isDigitOf 16) = true :=
    List.all_eq_true.2 (isDigitOf_padded (by decide) le_rfl 2 byte.toNat)
  rw [readByte, if_pos hall, hexWidth, value_padded (by decide) le_rfl, UInt8.ofNat_toNat]

theorem readAddress_hexWidth (width n : ℕ) : readAddress (hexWidth width n) = none := by
  refine if_neg fun hlast => ?_
  have hmem : (58 : UInt8) ∈ hexWidth width n := List.mem_of_getLast? hlast
  exact absurd (isDigitOf_padded (by decide) le_rfl width n _ hmem) (by decide)

/-- The word in front of a row. -/
def rowWord (addr : Address) : List UInt8 := text "0x" ++ hexWidth 8 addr.toNat ++ text ":"

theorem readAddress_rowWord (addr : Address) : readAddress (rowWord addr) = some addr := by
  have hread : (stoull (text "0x" ++ hexWidth 8 addr.toNat) 0).map Prod.fst = .ok addr := by
    have hhex := stoull_hex_nil 8 addr.toNat_lt
    rwa [UInt64.ofNat_toNat] at hhex
  have hlast : (rowWord addr).getLast? = some 58 := List.getLast?_concat
  have hdrop : (rowWord addr).dropLast = text "0x" ++ hexWidth 8 addr.toNat := List.dropLast_concat
  rw [readAddress, if_pos hlast, hdrop]
  cases hstoull : stoull (text "0x" ++ hexWidth 8 addr.toNat) 0 with
  | error e =>
    rw [hstoull] at hread
    cases hread
  | ok r =>
    rw [hstoull] at hread
    exact congrArg some (Except.ok.inj hread)

theorem isspace_rowWord {addr : Address} : ∀ b ∈ rowWord addr, isspace b = false := by
  intro b hb
  rcases List.mem_append.1 hb with hb | hb
  · rcases List.mem_append.1 hb with hb | hb
    · exact forall_mem_of_all (p := (isspace · = false)) (by decide) b hb
    · exact isspace_digits b hb
  · exact forall_mem_of_all (p := (isspace · = false)) (by decide) b hb

theorem rowWord_ne_nil {addr : Address} : rowWord addr ≠ [] :=
  List.append_ne_nil_of_right_ne_nil _ (by decide)

theorem words_dumpHeader (addr : Address) (i : ℕ) (rest : List UInt8) :
    words (dumpHeader addr i ++ rest) =
      if i % 16 = 0 then rowWord addr :: words rest else words rest := by
  unfold dumpHeader
  split_ifs with h0 hpos
  · have hsplit : text "\n" ++ text "0x" ++ hexWidth 8 addr.toNat ++ text ": " ++ rest =
        10 :: (rowWord addr ++ 32 :: rest) := by
      simp only [rowWord, List.append_assoc]
      rfl
    rw [hsplit, words_cons (by decide)]
    exact words_word_append rowWord_ne_nil isspace_rowWord (by decide) _
  · have hsplit : text "" ++ text "0x" ++ hexWidth 8 addr.toNat ++ text ": " ++ rest =
        rowWord addr ++ 32 :: rest := by
      simp only [rowWord, List.append_assoc]
      rfl
    rw [hsplit]
    exact words_word_append rowWord_ne_nil isspace_rowWord (by decide) _
  · rfl

/-- **A dump is read back.**  The first address need only be known in the middle of a row. -/
theorem readRows_dumpText (memory : Memory) (startAddr : Address) (n i : ℕ) (addr : Address)
    (haddr : i % 16 ≠ 0 → addr = startAddr + .ofNat i) :
    readRows addr (words (dumpText memory startAddr n i ++ text "\n")) =
      bytesFrom memory n (startAddr + .ofNat i) := by
  induction n generalizing i addr with
  | zero => rfl
  | succ n ih =>
    unfold dumpText bytesFrom
    dsimp only
    cases hread : memory.read (startAddr + .ofNat i) with
    | error e =>
      -- `Memory` is neither an address nor a byte
      have hsplit (rest : List UInt8) :
          text "\nMemory read out of bounds at address 0x" ++ rest =
            10 :: (text "Memory" ++ 32 :: (text "read out of bounds at address 0x" ++ rest)) := rfl
      dsimp only
      rw [List.append_assoc, List.append_assoc, hsplit, words_cons (by decide),
        words_word_append (by decide) (forall_mem_of_all (by decide)) (by decide)]
      rfl
    | ok byte =>
      have hbyte : words (hexWidth 2 byte.toNat ++ text " " ++
          (dumpText memory startAddr n (i + 1) ++ text "\n")) =
          hexWidth 2 byte.toNat :: words (dumpText memory startAddr n (i + 1) ++ text "\n") := by
        rw [List.append_assoc]
        exact words_word_append padded_ne_nil isspace_digits (by decide) _
      have hnext : startAddr + .ofNat i + 1 = startAddr + .ofNat (i + 1) := by
        rw [UInt64.ofNat_add, UInt64.add_assoc]
        rfl
      have hrow : readRows (startAddr + .ofNat i) (hexWidth 2 byte.toNat ::
          words (dumpText memory startAddr n (i + 1) ++ text "\n")) =
          (startAddr + .ofNat i, byte) :: bytesFrom memory n (startAddr + .ofNat i + 1) := by
        rw [readRows, readAddress_hexWidth, readByte_hexWidth]
        dsimp only
        rw [hnext, ih (i + 1) _ fun _ => rfl]
      dsimp only
      rw [List.append_assoc, List.append_assoc, words_dumpHeader, hbyte]
      split_ifs with h0
      · rw [readRows, readAddress_rowWord]
        exact hrow
      · rw [haddr h0]
        exact hrow

/-- The bytes from an address on are a part of the memory. -/
theorem bytesFrom_eq {memory : Memory} (hsize : memory.size < 2 ^ 64) (n : ℕ) (addr : Address) :
    bytesFrom memory n addr = ((memory.storage.drop addr.toNat).take n).zipIdx.map fun e =>
      (addr + .ofNat e.2, e.1) := by
  induction n generalizing addr with
  | zero => simp [bytesFrom]
  | succ n ih =>
    unfold bytesFrom
    by_cases h : addr.toNat < memory.storage.length
    · have hread : memory.read addr = .ok memory.storage[addr.toNat] := by
        rw [Memory.read, List.getElem?_eq_getElem h]
      -- the memory ends below the last address, so the next one does not wrap
      have hnext : (addr + 1).toNat = addr.toNat + 1 := by
        have hsum : addr.toNat + 1 < 2 ^ 64 := by
          have hlength : memory.storage.length < 2 ^ 64 := hsize
          omega
        rw [UInt64.toNat_add]
        exact Nat.mod_eq_of_lt hsum
      rw [hread, List.drop_eq_getElem_cons h, List.take_succ_cons, List.zipIdx_cons,
        List.map_cons, List.zipIdx_eq_map_add]
      dsimp only
      rw [ih (addr + 1), hnext, List.map_map]
      refine congrArg₂ List.cons (by simp) (List.map_congr_left fun e _ => Prod.ext ?_ rfl)
      show addr + 1 + .ofNat e.2 = addr + .ofNat (0 + 1 + e.2)
      rw [Nat.zero_add, UInt64.ofNat_add, ← UInt64.add_assoc]
      rfl
    · have hread : memory.read addr = .error ("Memory read out of bounds at address " ++
          toString addr) := by
        rw [Memory.read, List.getElem?_eq_none (not_lt.1 h)]
      rw [hread, List.drop_eq_nil_iff.2 (not_lt.1 h)]
      rfl

/-- The title of a dump, without the end of the line. -/
def dumpTitle (startAddr : Address) (count : UInt64) : List UInt8 :=
  text "=== Memory Dump (0x" ++ hex startAddr.toNat ++ text " - " ++ hex count.toNat ++
    text " bytes) ==="

theorem dumpTitle_oneLine {startAddr : Address} {count : UInt64} :
    ∀ b ∈ dumpTitle startAddr count, b ≠ 10 := by
  have hdigits (n : ℕ) : ∀ b ∈ hex n, b ≠ 10 := by
    rintro b hb rfl
    exact absurd (isDigitOf_numeral (by decide) le_rfl n _ hb) (by decide)
  intro b hb
  simp only [dumpTitle, List.mem_append] at hb
  rcases hb with (((hb | hb) | hb) | hb) | hb
  · exact forall_mem_of_all (p := (· ≠ 10)) (by decide) b hb
  · exact hdigits _ b hb
  · exact forall_mem_of_all (p := (· ≠ 10)) (by decide) b hb
  · exact hdigits _ b hb
  · exact forall_mem_of_all (p := (· ≠ 10)) (by decide) b hb

theorem prints_printBytes (memory : Memory) (startAddr : Address) (count : UInt64) (s : Session σ) :
    Prints (printBytes memory startAddr count) s (dumpTitle startAddr count ++
      10 :: (dumpText memory startAddr count.toNat 0 ++ text "\n")) := by
  have hprints := (prints_write (dumpTitle startAddr count ++ [10]) s).bind
    ((prints_dump memory startAddr count.toNat 0 _).bind (prints_write (text "\n") _))
  have htitle : text "=== Memory Dump (0x" ++ hex startAddr.toNat ++ text " - " ++
      hex count.toNat ++ text " bytes) ===\n" = dumpTitle startAddr count ++ [10] := by
    simp only [dumpTitle, List.append_assoc]
    rfl
  rw [List.append_assoc] at hprints
  rw [printBytes, htitle]
  exact hprints

theorem readDump_printBytes (memory : Memory) (startAddr : Address) (count : UInt64) :
    readDump (dumpTitle startAddr count ++
        10 :: (dumpText memory startAddr count.toNat 0 ++ text "\n")) =
      bytesFrom memory count.toNat startAddr := by
  have htitle : ∀ b ∈ dumpTitle startAddr count, decide (b ≠ 10) = true :=
    fun b hb => decide_eq_true (dumpTitle_oneLine b hb)
  have hrows := readRows_dumpText memory startAddr count.toNat 0 0 fun h => absurd rfl h
  rw [readDump, List.dropWhile_append_of_pos htitle]
  exact hrows.trans (by simp)

/-! ### The command -/

/-- A line of a word and arguments, each without white space around it. -/
theorem split_trim_line {word args : List UInt8} (hword : word ≠ [])
    (hspace : ∀ b ∈ word, isspace b = false) (hargs : args ≠ [])
    (hfirst : isspace (args.head hargs) = false) (hlast : isspace (args.getLast hargs) = false) :
    trim (word ++ 32 :: args) ≠ [] ∧ split (trim (word ++ 32 :: args)) = (word, args) := by
  have hline : trim (word ++ 32 :: args) = word ++ 32 :: args := by
    have htrim := trimBy_eq (p := isspace) (a := []) (t := word ++ 32 :: args) (b := []) nofun nofun
      (List.append_ne_nil_of_left_ne_nil hword _) ?_ ?_
    · rwa [List.nil_append, List.append_nil] at htrim
    · rw [List.head_append_of_ne_nil hword]
      exact hspace _ (List.head_mem hword)
    · rw [List.getLast_append_of_ne_nil _ (List.cons_ne_nil _ _), List.getLast_cons hargs]
      exact hlast
  have hargs' : trim (32 :: args) = args := by
    have htrim := trimBy_eq (p := isspace) (a := [32]) (t := args) (b := [])
      (forall_mem_of_all (by decide)) nofun hargs hfirst hlast
    rwa [List.append_nil] at htrim
  have hseparator : ∀ b ∈ word, isSeparator b = false := fun b hb => by
    have hnot := not_isSeparator (hspace b hb)
    simpa using hnot
  rw [hline, split_word hseparator (by decide), hargs']
  exact ⟨List.append_ne_nil_of_left_ne_nil hword _, rfl⟩

/-- The address in the arguments, with any number of zeros in front. -/
def addressWord (width : ℕ) (a : Address) : List UInt8 := text "0x" ++ hexWidth width a.toNat

theorem isspace_addressWord {width : ℕ} {a : Address} :
    ∀ b ∈ addressWord width a, isspace b = false := by
  intro b hb
  rcases List.mem_append.1 hb with hb | hb
  · exact forall_mem_of_all (p := (isspace · = false)) (by decide) b hb
  · exact isspace_digits b hb

theorem stoull_addressWord (width : ℕ) (a : Address) :
    (stoull (addressWord width a) 0).map Prod.fst = .ok a := by
  have hhex := stoull_hex_nil width a.toNat_lt
  rwa [UInt64.ofNat_toNat] at hhex

theorem memoryArguments_eq (width : ℕ) (a : Address) (n : UInt64) :
    memoryArguments (addressWord width a ++ 32 :: dec n.toNat) = (addressWord width a, .ok n) := by
  have hdrop : (addressWord width a ++ 32 :: dec n.toNat).dropWhile isspace =
      addressWord width a ++ 32 :: dec n.toNat := rfl
  have htake : (addressWord width a ++ 32 :: dec n.toNat).takeWhile (fun b => ¬ isspace b) =
      addressWord width a := by
    rw [List.takeWhile_append_of_pos fun b hb => by simp [isspace_addressWord b hb]]
    exact List.append_nil _
  have hcount := (stoull_blank (by decide : isspace 32 = true) (dec n.toNat) 10).trans
    (stoull_dec n.toNat_lt)
  rw [UInt64.ofNat_toNat] at hcount
  rw [memoryArguments, hdrop, htake, List.drop_left, hcount]

variable {m : Monitor σ Cb H R}

theorem printMemory_eq {memory : σ → Memory} (hmem : m.memory = some memory) (width : ℕ)
    (a : Address) {n : UInt64} (hn : n ≠ 0) :
    m.printMemory (addressWord width a ++ 32 :: dec n.toNat) = (do
      printBytes (memory (← get).system) a n) := by
  have hread := stoull_addressWord width a
  rw [printMemory, hmem]
  dsimp only
  rw [if_neg (List.append_ne_nil_of_right_ne_nil _ (List.cons_ne_nil _ _)), memoryArguments_eq]
  dsimp only
  rw [if_neg hn]
  cases hstoull : stoull (addressWord width a) 0 with
  | error e =>
    rw [hstoull] at hread
    cases hread
  | ok r =>
    obtain ⟨startAddr, pos⟩ := r
    rw [hstoull] at hread
    obtain rfl : startAddr = a := Except.ok.inj hread
    rfl

/-- **A memory dump is the memory.**  The command `memory` with an address and a count prints what
is read back as the bytes from that address on, with their addresses, up to the end of the
memory. -/
theorem readDump_executeCommand {memory : σ → Memory} (hmem : m.memory = some memory) (width : ℕ)
    (a : Address) {n : UInt64} (hn : n ≠ 0) (s : Session σ)
    (hsize : (memory s.system).size < 2 ^ 64) :
    ∃ printed, (m.executeCommand (text "memory" ++ 32 :: (addressWord width a ++
        32 :: dec n.toNat))).call s = (.ok true, { s with output := s.output ++ printed }) ∧
      readDump printed =
        (((memory s.system).storage.drop a.toNat).take n.toNat).zipIdx.map fun e =>
          (a + .ofNat e.2, e.1) := by
  have hne : dec n.toNat ≠ [] := numeral_ne_nil
  have hlast : isspace ((addressWord width a ++ 32 :: dec n.toNat).getLast
      (List.append_ne_nil_of_right_ne_nil _ (List.cons_ne_nil _ _))) = false := by
    rw [List.getLast_append_of_ne_nil _ (List.cons_ne_nil _ _), List.getLast_cons hne]
    exact not_isspace_of_isDigitOf
      (isDigitOf_numeral (by decide) (by decide) _ _ (List.getLast_mem hne))
  obtain ⟨hline, hsplit⟩ : trim (text "memory" ++ 32 :: _) ≠ [] ∧
      split (trim (text "memory" ++ 32 :: _)) = (text "memory", _) :=
    split_trim_line (by decide) (forall_mem_of_all (by decide)) _ rfl hlast
  have hdispatch : m.dispatch (text "memory") (addressWord width a ++ 32 :: dec n.toNat) = (do
      m.printMemory (addressWord width a ++ 32 :: dec n.toNat)
      return true) := rfl
  have hprints := prints_printBytes (memory s.system) a n s
  refine ⟨_, ?_, (readDump_printBytes _ a n).trans (bytesFrom_eq hsize _ a)⟩
  rw [executeCommand, if_neg hline, hsplit, hdispatch, printMemory_eq hmem width a hn]
  exact Method.call_bind_ok _ _ _ _ hprints

/-- A monitor of a memory. -/
def memoryMonitor : Monitor Memory Empty Empty Empty where
  cpu := none
  memory := some id
  mmioBus := none
  gpio := none
  timer := none
  interruptController := none
  uart := none
  clock := none
  scheduler := none

/-- Five bytes are asked for, and there are three. -/
theorem readDump_executeCommand_end : ∃ printed,
    ((memoryMonitor.executeCommand (text "memory 0x0001 5")).call ⟨⟨[7, 8, 9, 10]⟩, [], []⟩) =
        (.ok true, ⟨⟨[7, 8, 9, 10]⟩, [], printed⟩) ∧
      readDump printed = [(1, 8), (2, 9), (3, 10)] :=
  readDump_executeCommand (m := memoryMonitor) rfl 4 1 (by decide : (5 : UInt64) ≠ 0)
    ⟨⟨[7, 8, 9, 10]⟩, [], []⟩ (by decide)

/-! ### Registers -/

theorem readNumbers_append_cons (s : List UInt8) {b : UInt8} (hb : isspace b = true)
    (t : List UInt8) : readNumbers (s ++ b :: t) = readNumbers s ++ readNumbers t := by
  rw [readNumbers, words_append_cons s hb, List.filterMap_append]
  rfl

theorem readNumbers_label {label : List UInt8} (h : readNumbers label = []) {b : UInt8}
    (hb : isspace b = true) (t : List UInt8) : readNumbers (label ++ b :: t) = readNumbers t := by
  rw [readNumbers_append_cons label hb, h, List.nil_append]

/-- A word that is no number. -/
theorem readNumbers_skip {w : List UInt8} (hw : ∀ b ∈ w, isspace b = false)
    (hbegin : ¬ text "0x" <+: w) {b : UInt8} (hb : isspace b = true) (t : List UInt8) :
    readNumbers (w ++ b :: t) = readNumbers t := by
  rw [readNumbers_append_cons w hb]
  by_cases hne : w = []
  · rw [hne]
    rfl
  · rw [readNumbers, words_word hne hw]
    simp [readNumber, hbegin]

/-- A number, and what stands behind it in the same word. -/
theorem readNumbers_number (width : ℕ) {n : ℕ} (hn : n < 2 ^ 64) {tail : List UInt8}
    (htail : ∀ b ∈ tail, isspace b = false) (hhead : ∀ b ∈ tail.head?, isDigitOf 16 b = false)
    {b : UInt8} (hb : isspace b = true) (t : List UInt8) :
    readNumbers (text "0x" ++ hexWidth width n ++ (tail ++ b :: t)) =
      .ofNat n :: readNumbers t := by
  have hspace : ∀ b ∈ text "0x" ++ (hexWidth width n ++ tail), isspace b = false := by
    intro b hb
    rcases List.mem_append.1 hb with hb | hb
    · exact forall_mem_of_all (p := (isspace · = false)) (by decide) b hb
    · rcases List.mem_append.1 hb with hb | hb
      · exact isspace_digits b hb
      · exact htail b hb
  have hnumber : readNumber (text "0x" ++ (hexWidth width n ++ tail)) = some (.ofNat n) := by
    have hread := stoull_hex width hn hhead
    rw [readNumber, if_pos (List.prefix_append _ _)]
    cases hstoull : stoull (text "0x" ++ (hexWidth width n ++ tail)) 0 with
    | error e => cases (congrArg _ hstoull).symm.trans hread
    | ok r => exact congrArg some (Except.ok.inj ((congrArg _ hstoull).symm.trans hread))
  rw [← List.append_assoc, List.append_assoc (text "0x"), readNumbers_append_cons _ hb, readNumbers,
    words_word (List.append_ne_nil_of_left_ne_nil (by decide) _) hspace, List.filterMap_cons,
    hnumber]
  rfl

theorem readNumbers_alone (width : ℕ) (v : UInt32) {b : UInt8} (hb : isspace b = true)
    (t : List UInt8) :
    readNumbers (text "0x" ++ hexWidth width v.toNat ++ b :: t) = v.toUInt64 :: readNumbers t := by
  have hn : v.toNat < 2 ^ 64 := v.toNat_lt.trans (by decide)
  have hnil : ∀ b ∈ ([] : List UInt8), isspace b = false := fun _ h => absurd h List.not_mem_nil
  have hv : UInt64.ofNat v.toNat = v.toUInt64 := UInt64.toNat_inj.1 (by simp)
  exact hv ▸ readNumbers_number width hn hnil (fun _ h => by cases h) hb t

/-- The registers in the order in which they are printed. -/
def registerValues (rf : RegisterFile) : List UInt32 := rf.pc :: rf.sp :: rf.sr :: List.ofFn rf.gpr

/-- What is printed of a general register. -/
def registerText (rf : RegisterFile) (i : Fin numGprs) : List UInt8 :=
  text "R" ++ dec i ++ text (if i.val < 10 then ":  " else ": ") ++ text "0x" ++
    hexWidth 8 (rf.gpr i).toNat ++ text (if i.val % 4 = 3 then "\n" else "\t")

theorem prints_printRegister (rf : RegisterFile) (i : Fin numGprs) (s : Session σ) :
    Prints (printRegister rf i) s (registerText rf i) := by
  have hread : rf.readRegister i = .ok (rf.gpr i) := by
    rw [RegisterFile.readRegister, RegisterFile.validateIndex, dif_pos i.isLt]
    rfl
  rw [printRegister, hread]
  exact prints_write _ s

theorem readNumbers_registerText (rf : RegisterFile) (i : Fin numGprs) (t : List UInt8) :
    readNumbers (registerText rf i ++ t) = (rf.gpr i).toUInt64 :: readNumbers t := by
  have hlabel : ∀ b ∈ text "R" ++ dec i ++ text ":", isspace b = false := by
    intro b hb
    simp only [List.mem_append] at hb
    rcases hb with (hb | hb) | hb
    · exact forall_mem_of_all (p := (isspace · = false)) (by decide) b hb
    · exact not_isspace_of_isDigitOf (isDigitOf_numeral (by decide) (by decide) _ b hb)
    · exact forall_mem_of_all (p := (isspace · = false)) (by decide) b hb
  have hbegin : ¬ text "0x" <+: text "R" ++ dec i ++ text ":" := fun h =>
    absurd (List.cons_prefix_cons.1 h).1 (by decide)
  obtain ⟨b, hb, hend⟩ : ∃ b, isspace b = true ∧
      text (if i.val % 4 = 3 then "\n" else "\t") = [b] := by
    split_ifs
    · exact ⟨10, by decide, rfl⟩
    · exact ⟨9, by decide, rfl⟩
  obtain ⟨blanks, hcolon, hblanks⟩ : ∃ blanks,
      text (if i.val < 10 then ":  " else ": ") = text ":" ++ 32 :: blanks ∧
        ∀ u, readNumbers (blanks ++ u) = readNumbers u := by
    split_ifs
    · exact ⟨[32], rfl, fun u => readNumbers_append_cons [] (by decide) u⟩
    · exact ⟨[], rfl, fun u => rfl⟩
  have hsplit : registerText rf i ++ t = text "R" ++ dec i ++ text ":" ++
      32 :: (blanks ++ (text "0x" ++ hexWidth 8 (rf.gpr i).toNat ++ b :: t)) := by
    simp only [registerText, hcolon, hend, List.append_assoc, List.cons_append, List.nil_append]
  rw [hsplit, readNumbers_skip hlabel hbegin (by decide), hblanks, readNumbers_alone 8 _ hb]

/-- What the command `regs` prints. -/
def regsText (rf : RegisterFile) : List UInt8 :=
  text "=== CPU Registers ===\nPC:     0x" ++ hexWidth 8 rf.pc.toNat ++
    text "\nSP:     0x" ++ hexWidth 8 rf.sp.toNat ++
    text "\nStatus: 0x" ++ hexWidth 8 rf.sr.toNat ++ text "\n" ++
    (List.finRange numGprs).flatMap (registerText rf)

theorem readNumbers_regsText (rf : RegisterFile) :
    readNumbers (regsText rf) = (registerValues rf).map UInt32.toUInt64 := by
  have hgpr (l : List (Fin numGprs)) : readNumbers (l.flatMap (registerText rf)) =
      l.map fun i => (rf.gpr i).toUInt64 := by
    induction l with
    | nil => rfl
    | cons i l ih => rw [List.flatMap_cons, readNumbers_registerText, ih, List.map_cons]
  have hsplit : regsText rf =
      text "=== CPU Registers ===\nPC:    " ++ 32 :: (text "0x" ++ hexWidth 8 rf.pc.toNat ++ 10 ::
        (text "SP:    " ++ 32 :: (text "0x" ++ hexWidth 8 rf.sp.toNat ++ 10 ::
          (text "Status:" ++ 32 :: (text "0x" ++ hexWidth 8 rf.sr.toNat ++ 10 ::
            (List.finRange numGprs).flatMap (registerText rf)))))) := by
    simp only [regsText, List.append_assoc]
    rfl
  rw [hsplit, readNumbers_label (by decide) (by decide), readNumbers_alone 8 _ (by decide),
    readNumbers_label (by decide) (by decide), readNumbers_alone 8 _ (by decide),
    readNumbers_label (by decide) (by decide), readNumbers_alone 8 _ (by decide), hgpr,
    registerValues, List.map_cons, List.map_cons, List.map_cons, List.map_ofFn, List.ofFn_eq_map]
  rfl

theorem prints_printRegs {cpu : CPU σ Cb} (hcpu : m.cpu = some cpu) (s : Session σ) :
    Prints m.printRegs s (regsText (cpu.registerFile s.system)) := by
  have hrange : List.range numGprs = (List.finRange numGprs).map Fin.val := by decide
  have hforM (rf : RegisterFile) (s : Session σ) :
      Prints ((List.range numGprs).forM (printRegister rf)) s
        ((List.finRange numGprs).flatMap (registerText rf)) := by
    rw [hrange, List.forM_eq_forM, List.forM_map, ← List.forM_eq_forM]
    exact Prints.forM (fun i _ s => prints_printRegister rf i s) s
  rw [printRegs, hcpu]
  refine Prints.get_bind ?_
  exact (prints_write _ s).bind (hforM _ _)

/-! ### Registers on the bus -/

/-- What is printed of a register on the bus. -/
def mmioRow (register : Address × UInt32) : List UInt8 :=
  text "  0x" ++ hexWidth 8 register.1.toNat ++ text " (Value: 0x" ++
    hexWidth 8 register.2.toNat ++ text ")\n"

/-- What the command `mmio` prints. -/
def mmioText (addrs : List (Address × UInt32)) : List UInt8 :=
  text "=== Registered MMIO Addresses (" ++ dec addrs.length ++ text " entries) ===\n" ++
    addrs.flatMap mmioRow

theorem prints_printMMIORegister {mmioBus : MappedRegisters R} {addr : Address}
    (haddr : addr ∈ mmioBus.registeredAddresses) (s : Session σ) :
    Prints (printMMIORegister mmioBus addr) s (mmioRow (addr, mmioBus.value addr)) := by
  rw [ printMMIORegister, MappedRegisters.read_of_registered haddr]
  exact prints_write _ s

theorem prints_mmio {mmioBus : σ → MappedRegisters R} (hbus : m.mmioBus = some mmioBus)
    (s : Session σ) : Prints m.printMMIO s (mmioText (mmioBus s.system).entries) := by
  have hrows (s' : Session σ) :
      Prints ((mmioBus s.system).registeredAddresses.forM
        (printMMIORegister (mmioBus s.system))) s'
        ((mmioBus s.system).entries.flatMap mmioRow) := by
    rw [MappedRegisters.entries, List.flatMap_map]
    exact Prints.forM (fun addr haddr s => prints_printMMIORegister haddr s) s'
  rw [ printMMIO, hbus, mmioText, MappedRegisters.entries, List.length_map]
  refine Prints.get_bind ?_
  exact (prints_write _ s).bind (hrows _)

theorem readNumbers_mmioRow (register : Address × UInt32) (t : List UInt8) :
    readNumbers (mmioRow register ++ t) =
      register.1 :: register.2.toUInt64 :: readNumbers t := by
  obtain ⟨addr, value⟩ := register
  have hsplit : mmioRow (addr, value) ++ t =
      text " " ++ 32 :: (text "0x" ++ hexWidth 8 addr.toNat ++ ([] ++ 32 :: (text "(Value:" ++
        32 :: (text "0x" ++ hexWidth 8 value.toNat ++ (text ")" ++ 10 :: t))))) := by
    simp only [mmioRow, List.append_assoc]
    rfl
  have hend : ∀ b ∈ ([] : List UInt8).head?, isDigitOf 16 b = false := nofun
  have hclose : ∀ b ∈ (text ")").head?, isDigitOf 16 b = false := by
    intro b hb
    obtain rfl : 41 = b := Option.some.inj hb
    decide
  have hvalue : UInt64.ofNat value.toNat = value.toUInt64 := UInt64.toNat_inj.1 (by simp)
  rw [hsplit, readNumbers_label (by decide) (by decide),
    readNumbers_number 8 addr.toNat_lt (List.forall_mem_nil _) hend (by decide),
    readNumbers_label (by decide) (by decide),
    readNumbers_number 8 (value.toNat_lt.trans (by decide)) (forall_mem_of_all (by decide)) hclose
      (by decide), hvalue, UInt64.ofNat_toNat]

theorem readNumbers_mmioText (addrs : List (Address × UInt32)) :
    readNumbers (mmioText addrs) =
      addrs.flatMap fun register => [register.1, register.2.toUInt64] := by
  have hrows : readNumbers (addrs.flatMap mmioRow) =
      addrs.flatMap fun register => [register.1, register.2.toUInt64] := by
    induction addrs with
    | nil => rfl
    | cons register addrs ih =>
      rw [List.flatMap_cons, readNumbers_mmioRow, ih, List.flatMap_cons]
      rfl
  have hsplit : mmioText addrs = text "=== Registered MMIO Addresses" ++
      32 :: (text "(" ++ dec addrs.length ++ 32 :: (text "entries) ===" ++
        10 :: addrs.flatMap mmioRow)) := by
    simp only [mmioText, List.append_assoc]
    rfl
  have hcount : ∀ b ∈ text "(" ++ dec addrs.length, isspace b = false := by
    intro b hb
    rcases List.mem_append.1 hb with hb | hb
    · exact forall_mem_of_all (p := (isspace · = false)) (by decide) b hb
    · exact not_isspace_of_isDigitOf (isDigitOf_numeral (by decide) (by decide) _ b hb)
  have hbegin : ¬ text "0x" <+: text "(" ++ dec addrs.length := fun h =>
    absurd (List.cons_prefix_cons.1 h).1 (by decide)
  rw [hsplit, readNumbers_label (by decide) (by decide),
    readNumbers_skip hcount hbegin (by decide), readNumbers_label (by decide) (by decide), hrows]

/-! ### The commands -/

theorem call_executeCommand {line : List UInt8} {word : String} (hword : text word ≠ [])
    (hline : toLower (firstWord line) = text word) {x : Method (Session σ) PUnit}
    (hdispatch : ∀ cmdWord args, toLower cmdWord = text word →
      m.dispatch cmdWord args = x >>= fun _ => pure true)
    {s : Session σ} {printed : List UInt8} (hprints : Prints x s printed) :
    (m.executeCommand line).call s = (.ok true, { s with output := s.output ++ printed }) := by
  have hne : trim line ≠ [] := by
    intro hnil
    rw [(executeCommand_empty (m := m) hnil).2] at hline
    exact hword hline.symm
  rw [executeCommand_dispatch hne, hdispatch _ _ hline]
  exact Method.call_bind_ok _ _ _ _ hprints

/-- **The registers are read back.**  The commands `regs` and `mmio` print what is read back as the
values of all registers of the CPU, and as the addresses and values of all registers on the bus. -/
theorem readNumbers_executeCommand (m : Monitor σ Cb H R) (line : List UInt8) (s : Session σ) :
    (∀ cpu, m.cpu = some cpu → toLower (firstWord line) = text "regs" →
      ∃ printed, (m.executeCommand line).call s =
          (.ok true, { s with output := s.output ++ printed }) ∧
        readNumbers printed = (registerValues (cpu.registerFile s.system)).map UInt32.toUInt64) ∧
    (∀ bus, m.mmioBus = some bus → toLower (firstWord line) = text "mmio" →
      ∃ printed, (m.executeCommand line).call s =
          (.ok true, { s with output := s.output ++ printed }) ∧
        readNumbers printed =
          (bus s.system).entries.flatMap fun register =>
            [register.1, register.2.toUInt64]) := by
  constructor
  · intro cpu hcpu hline
    refine ⟨_, call_executeCommand (by decide) hline ?_ (prints_printRegs hcpu s),
      readNumbers_regsText _⟩
    intro cmdWord args hword
    rw [dispatch, hword]
    rfl
  · intro bus hbus hline
    refine ⟨_, call_executeCommand (by decide) hline ?_ (prints_mmio hbus s),
      readNumbers_mmioText _⟩
    intro cmdWord args hword
    rw [dispatch, hword]
    rfl

/-- All 19 registers of a CPU that has been reset are printed. -/
theorem readNumbers_executeCommand_reset : ∃ printed,
    (counterMonitor.executeCommand (text " REGS ")).call ⟨3, [], []⟩ =
        (.ok true, ⟨3, [], printed⟩) ∧
      readNumbers printed = List.replicate 19 0 :=
  (readNumbers_executeCommand counterMonitor (text " REGS ") ⟨3, [], []⟩).1 _ rfl (by decide)

end Monitor

end EFS
