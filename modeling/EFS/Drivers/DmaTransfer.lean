import EFS.Data.ForwardCopy
import EFS.Drivers.Dma

/-!
# Memory-to-memory transfers

A transfer between two ranges of the memory copies its bytes forward, one a step, until it is
complete or one of the ranges runs past the end of the memory.  `start` checks only the first
address of each range, so a transfer that is too long fails on its way: it has then copied the
bytes that fit.

`memory_to_memory` gives the result of every such transfer, for ranges that may overlap, after any
number of steps.
-/

namespace EFS

namespace Drivers

open EFS.Mmio EFS.Kernel EFS.System

namespace DMAController

variable {R H Cb : Type} {dma : DMAController} {dev : Devices R H Cb}

/-- The addresses `a, a + 1, …` of a range of `length` bytes. -/
def InRange (start length a : UInt64) : Prop :=
  start.toNat ≤ a.toNat ∧ a.toNat < start.toNat + length.toNat

/-- Nothing but the memory decodes the address. -/
def Unmapped (dma : DMAController) (dev : Devices R H Cb) (a : Address) : Prop :=
  dma.isUartData dev a = false ∧ dma.isMmioReg dev a = false

/-- The transfer after `j` bytes. -/
def progress (dma : DMAController) (j : ℕ) : DMAController :=
  { dma with
    currentSrc := dma.sourceAddress + UInt64.ofNat j
    currentDst := dma.destinationAddress + UInt64.ofNat j
    transferredBytes := UInt64.ofNat j
    busy := true
    completed := false
    error := false }

/-- The devices after `j` bytes: only the memory has changed. -/
def copied (dma : DMAController) (dev : Devices R H Cb) (j : ℕ) : Devices R H Cb :=
  { dev with memory :=
    ⟨forwardCopy dma.sourceAddress.toNat dma.destinationAddress.toNat j dev.memory.storage⟩ }

/-- A transfer from memory to memory, from the configuration of the controller `dma`. -/
structure MemoryTransfer (dma : DMAController) (dev : Devices R H Cb) : Prop where
  memory : dma.memory = true
  srcIncrement : dma.srcIncrement = true
  dstIncrement : dma.dstIncrement = true
  length_pos : 0 < dma.length.toNat
  src_lt : dma.sourceAddress.toNat < dev.memory.size
  dst_lt : dma.destinationAddress.toNat < dev.memory.size
  src_end : dma.sourceAddress.toNat + dma.length.toNat < 2 ^ 64
  dst_end : dma.destinationAddress.toNat + dma.length.toNat < 2 ^ 64
  src_unmapped : ∀ a, InRange dma.sourceAddress dma.length a → dma.Unmapped dev a
  dst_unmapped : ∀ a, InRange dma.destinationAddress dma.length a → dma.Unmapped dev a

/-- How many bytes of the transfer fit into the memory. -/
def fitting (dma : DMAController) (dev : Devices R H Cb) : ℕ :=
  min dma.length.toNat (min (dev.memory.size - dma.sourceAddress.toNat)
    (dev.memory.size - dma.destinationAddress.toNat))

/-- How many steps the transfer takes: one for each byte, and one to fail. -/
def duration (dma : DMAController) (dev : Devices R H Cb) : ℕ :=
  if dma.fitting dev = dma.length.toNat then dma.length.toNat else dma.fitting dev + 1

/-! ### One step -/

theorem toNat_add_ofNat {a : UInt64} {j : ℕ} (h : a.toNat + j < 2 ^ 64) :
    (a + UInt64.ofNat j).toNat = a.toNat + j := by
  rw [UInt64.toNat_add, UInt64.toNat_ofNat']
  omega

variable {j : ℕ}

theorem fetch_memory {a : Address} (h : dma.Unmapped dev a) (hm : dma.memory = true)
    {v : UInt8} (hv : dev.memory.storage[a.toNat]? = some v) :
    dma.fetch dev a = .ok (some (v, dev)) := by
  have hvalid : dma.isMemory dev a = true := by
    have := (List.getElem?_eq_some_iff.1 hv).1
    simp [isMemory, hm, Memory.isValidAddress, this]
  simp [fetch, h.1, h.2, hvalid, Memory.read, hv, bind, Except.bind, pure, Except.pure]

theorem deposit_memory [DecidableEq R] {a : Address} (h : dma.Unmapped dev a)
    (hm : dma.memory = true) (ha : a.toNat < dev.memory.size) (v : UInt8) :
    dma.deposit dev a v =
      .ok (some { dev with memory := ⟨dev.memory.storage.set a.toNat v⟩ }) := by
  have hvalid : dev.memory.isValidAddress a = true := by
    simpa [Memory.isValidAddress, Memory.size] using ha
  simp [deposit, h.1, h.2, isMemory, hm, hvalid, Memory.write, bind, Except.bind, pure, Except.pure]

theorem isMemory_of_le {a : Address} (ha : dev.memory.size ≤ a.toNat) :
    dma.isMemory dev a = false := by
  have : ¬ a.toNat < dev.memory.storage.length := not_lt.2 ha
  simp [isMemory, Memory.isValidAddress, this]

theorem fetch_none {a : Address} (h : dma.Unmapped dev a) (ha : dev.memory.size ≤ a.toNat) :
    dma.fetch dev a = .ok none := by
  simp [fetch, h.1, h.2, isMemory_of_le ha, pure, Except.pure]

theorem deposit_none [DecidableEq R] {a : Address} (h : dma.Unmapped dev a)
    (ha : dev.memory.size ≤ a.toNat) (v : UInt8) : dma.deposit dev a v = .ok none := by
  simp [deposit, h.1, h.2, isMemory_of_le ha, pure, Except.pure]

theorem ofNat_succ (j : ℕ) : UInt64.ofNat j + 1 = UInt64.ofNat (j + 1) := by
  rw [UInt64.ofNat_add]
  rfl

theorem advanced_progress (hs : dma.srcIncrement = true) (hd : dma.dstIncrement = true) (j : ℕ) :
    (dma.progress j).advanced = dma.progress (j + 1) := by
  simp only [advanced, progress, hs, hd, ↓reduceIte, UInt64.add_assoc, ofNat_succ]

theorem not_length_le (h : j < dma.length.toNat) : ¬ dma.length ≤ UInt64.ofNat j := by
  rw [UInt64.le_iff_toNat_le, UInt64.toNat_ofNat']
  have := dma.length.toNat_lt
  omega

theorem size_copied (j : ℕ) : (dma.copied dev j).memory.size = dev.memory.size :=
  length_forwardCopy ..

/-! ### Completion -/

theorem toNat_moved (h : dma.transferredBytes < dma.length) :
    (dma.transferredBytes + 1).toNat = dma.transferredBytes.toNat + 1 := by
  have hlt := UInt64.lt_iff_toNat_lt.1 h
  have hlength := dma.length.toNat_lt
  rw [UInt64.toNat_add]
  change (_ + 1) % 2 ^ 64 = _
  omega

/-- The devices hold the same data. -/
structure SameData (dev dev' : Devices R H Cb) : Prop where
  memory : dev'.memory = dev.memory
  mmioBus : dev'.mmioBus = dev.mmioBus
  registers : dev'.registers = dev.registers
  uart : dev'.uart = dev.uart

section

variable (dma dev)

theorem triggerInterrupt_spec : ∃ ic thrown,
    dma.triggerInterrupt dev = ({ dev with interruptController := ic }, thrown) ∧
      ((dma.interruptController = true → dma.interruptId.toNat < maxInterrupts) →
        thrown = none) := by
  unfold triggerInterrupt
  split_ifs with hic
  · cases htrigger : dev.interruptController.trigger dma.interruptId with
    | ok ic => exact ⟨ic, none, rfl, fun _ => rfl⟩
    | error e =>
      refine ⟨dev.interruptController, some e, rfl, fun hline => ?_⟩
      obtain ⟨ic, hok⟩ := dev.interruptController.trigger_ok_iff.2 (hline hic)
      cases htrigger.symm.trans hok
  · exact ⟨_, none, rfl, fun _ => rfl⟩

/-- The completion signals to the interrupt controller and the scheduler only, and it throws only if
the line does not exist. -/
theorem complete_spec (noop : Cb) : ∃ dev' thrown,
    dma.complete dev noop =
        ((if dma.length ≤ dma.transferredBytes then { dma with busy := false, completed := true }
          else dma, dev'), thrown) ∧
      SameData dev dev' ∧
      ((dma.interruptController = true → dma.interruptId.toNat < maxInterrupts) →
        thrown = none) := by
  unfold complete
  split_ifs with hlength
  · obtain ⟨ic, thrown, htrigger, hline⟩ :=
      triggerInterrupt_spec { dma with busy := false, completed := true } dev
    simp only [htrigger]
    cases thrown with
    | none =>
      refine ⟨_, none, rfl, ?_, fun _ => rfl⟩
      -- with or without the event in the scheduler
      split_ifs
      · exact ⟨rfl, rfl, rfl, rfl⟩
      · exact ⟨rfl, rfl, rfl, rfl⟩
    | some e => exact ⟨_, some e, rfl, ⟨rfl, rfl, rfl, rfl⟩, hline⟩
  · exact ⟨dev, none, rfl, ⟨rfl, rfl, rfl, rfl⟩, fun _ => rfl⟩

end

theorem complete_of_le (noop : Cb) (h : dma.length ≤ dma.transferredBytes) :
    (dma.complete dev noop).1.1 = { dma with busy := false, completed := true } ∧
      SameData dev (dma.complete dev noop).1.2 := by
  obtain ⟨dev', thrown, hcomplete, hsame, -⟩ := complete_spec dma dev noop
  rw [hcomplete, if_pos h]
  exact ⟨rfl, hsame⟩

theorem complete_of_not_le {noop : Cb} (h : ¬ dma.length ≤ dma.transferredBytes) :
    dma.complete dev noop = ((dma, dev), none) := by
  rw [complete, if_neg h]

namespace MemoryTransfer

variable (t : MemoryTransfer dma dev) (noop : Cb)

include t

theorem toNat_src (h : j < dma.length.toNat) :
    (dma.sourceAddress + UInt64.ofNat j).toNat = dma.sourceAddress.toNat + j := by
  have := t.src_end
  exact toNat_add_ofNat (by omega)

theorem toNat_dst (h : j < dma.length.toNat) :
    (dma.destinationAddress + UInt64.ofNat j).toNat = dma.destinationAddress.toNat + j := by
  have := t.dst_end
  exact toNat_add_ofNat (by omega)

theorem unmapped_src (h : j < dma.length.toNat) :
    (dma.progress j).Unmapped (dma.copied dev j) (dma.progress j).currentSrc := by
  refine t.src_unmapped _ ?_
  unfold InRange
  rw [progress, t.toNat_src h]
  omega

theorem unmapped_dst (h : j < dma.length.toNat) :
    (dma.progress j).Unmapped (dma.copied dev j) (dma.progress j).currentDst := by
  refine t.dst_unmapped _ ?_
  unfold InRange
  rw [progress, t.toNat_dst h]
  omega

/-- A step whose addresses are both in the memory copies one more byte. -/
theorem step_fits [DecidableEq R] (h : j < dma.length.toNat)
    (hs : dma.sourceAddress.toNat + j < dev.memory.size)
    (hd : dma.destinationAddress.toNat + j < dev.memory.size) :
    (dma.progress j).step (dma.copied dev j) noop =
      (dma.progress (j + 1)).complete (dma.copied dev (j + 1)) noop := by
  set l := (dma.copied dev j).memory.storage with hl
  have hlen : l.length = dev.memory.size := length_forwardCopy ..
  have hsrc : l[(dma.progress j).currentSrc.toNat]? = some l[dma.sourceAddress.toNat + j] := by
    rw [progress, t.toNat_src h]
    exact List.getElem?_eq_getElem _
  have hdst : (dma.progress j).currentDst.toNat = dma.destinationAddress.toNat + j := t.toNat_dst h
  have hfetch := fetch_memory (t.unmapped_src h) t.memory hsrc
  have hdeposit := deposit_memory (t.unmapped_dst h) t.memory
    (by rw [hdst, size_copied]; exact hd) l[dma.sourceAddress.toNat + j]
  have hcopied : dma.copied dev (j + 1) = { dma.copied dev j with memory :=
      ⟨l.set (dma.destinationAddress.toNat + j) l[dma.sourceAddress.toNat + j]⟩ } := by
    have hj : l[dma.sourceAddress.toNat + j]? = some l[dma.sourceAddress.toNat + j] :=
      List.getElem?_eq_getElem _
    rw [copied, forwardCopy, copyOne, show forwardCopy _ _ j _ = l from rfl, hj]
    rfl
  have hbusy : (dma.progress j).busy = true := rfl
  have hlen : ¬ (dma.progress j).length ≤ (dma.progress j).transferredBytes := not_length_le h
  rw [step, if_neg (by simp [hbusy]), if_neg hlen, hfetch]
  simp only [hdeposit, advanced_progress t.srcIncrement t.dstIncrement, hcopied, hdst]
  rfl

/-- A step fails when one of its addresses is past the end of the memory. -/
theorem step_fails [DecidableEq R] (h : j < dma.length.toNat)
    (hend : dev.memory.size ≤ dma.sourceAddress.toNat + j ∨
      dev.memory.size ≤ dma.destinationAddress.toNat + j) :
    (dma.progress j).step (dma.copied dev j) noop =
      (((dma.progress j).failed, dma.copied dev j), none) := by
  have hbusy : (dma.progress j).busy = true := rfl
  have hlen : ¬ (dma.progress j).length ≤ (dma.progress j).transferredBytes := not_length_le h
  have hsrc : (dma.progress j).currentSrc.toNat = dma.sourceAddress.toNat + j := t.toNat_src h
  have hdst : (dma.progress j).currentDst.toNat = dma.destinationAddress.toNat + j := t.toNat_dst h
  rw [step, if_neg (by simp [hbusy]), if_neg hlen]
  by_cases hs : dev.memory.size ≤ dma.sourceAddress.toNat + j
  · rw [fetch_none (t.unmapped_src h) (by rwa [hsrc, size_copied])]
  · have hd := hend.resolve_left hs
    have hv : (dma.copied dev j).memory.storage[(dma.progress j).currentSrc.toNat]? = some _ :=
      List.getElem?_eq_getElem (by
        rw [hsrc]
        exact lt_of_lt_of_eq (not_le.1 hs) (size_copied j).symm)
    rw [fetch_memory (t.unmapped_src h) t.memory hv]
    simp only [deposit_none (t.unmapped_dst h) (by rwa [hdst, size_copied])]

end MemoryTransfer

/-! ### The whole transfer -/

/-- The controller and its devices after `n` calls of `step()`. -/
def steps [DecidableEq R] (noop : Cb) (n : ℕ) (dma : DMAController) (dev : Devices R H Cb) :
    DMAController × Devices R H Cb :=
  (fun p => (p.1.step p.2 noop).1)^[n] (dma, dev)

section

variable [DecidableEq R] {noop : Cb}

theorem steps_succ (n : ℕ) : steps noop (n + 1) dma dev =
    ((steps noop n dma dev).1.step (steps noop n dma dev).2 noop).1 :=
  Function.iterate_succ_apply' ..

theorem steps_of_not_busy {n m : ℕ} (h : (steps noop n dma dev).1.busy = false) :
    steps noop (n + m) dma dev = steps noop n dma dev := by
  induction m with
  | zero => rfl
  | succ m ih => rw [← Nat.add_assoc, steps_succ, ih, step, if_pos (by simp [h])]

namespace MemoryTransfer

variable (t : MemoryTransfer dma dev)

include t

/-- **Run lemma.**  As long as the bytes fit, each step has copied one. -/
theorem steps_progress {n : ℕ} (hn : n ≤ dma.fitting dev) (hlen : n < dma.length.toNat) :
    steps noop n (dma.progress 0) dev = (dma.progress n, dma.copied dev n) := by
  induction n with
  | zero => rfl
  | succ n ih =>
    unfold fitting at hn
    rw [steps_succ, ih (by unfold fitting; omega) (by omega),
      t.step_fits noop (by omega) (by omega) (by omega), complete_of_not_le (not_length_le hlen)]

/-- A transfer that fits completes with its last byte. -/
theorem steps_complete (noop : Cb) (h : dma.fitting dev = dma.length.toNat) :
    (steps noop dma.length.toNat (dma.progress 0) dev).1 =
        { dma.progress dma.length.toNat with busy := false, completed := true } ∧
      (steps noop dma.length.toNat (dma.progress 0) dev).2.memory =
        (dma.copied dev dma.length.toNat).memory := by
  obtain ⟨n, hn⟩ := Nat.exists_eq_succ_of_ne_zero t.length_pos.ne'
  have hfit : n + 1 ≤ dma.fitting dev := by omega
  have hle : (dma.progress (n + 1)).length ≤ (dma.progress (n + 1)).transferredBytes := by
    change dma.length ≤ UInt64.ofNat (n + 1)
    rw [← Nat.succ_eq_add_one, ← hn, UInt64.ofNat_toNat]
    exact UInt64.le_refl _
  rw [hn, steps_succ, t.steps_progress (by omega) (by omega)]
  unfold fitting at hfit
  rw [t.step_fits noop (by omega) (by omega) (by omega)]
  exact (complete_of_le noop hle).imp_right SameData.memory

/-- A transfer that does not fit fails in the step after the last byte that fits. -/
theorem steps_fail (noop : Cb) (h : dma.fitting dev ≠ dma.length.toNat) :
    steps noop (dma.fitting dev + 1) (dma.progress 0) dev =
      ((dma.progress (dma.fitting dev)).failed, dma.copied dev (dma.fitting dev)) := by
  have hlt : dma.fitting dev < dma.length.toNat := lt_of_le_of_ne (Nat.min_le_left ..) h
  rw [steps_succ, t.steps_progress le_rfl hlt, t.step_fails noop hlt]
  unfold fitting at h hlt ⊢
  omega

end MemoryTransfer

/-- What a transfer of `length` bytes of which `k` fit has done, when it is over. -/
structure Transferred (m : Memory) (src dst length k : ℕ) (p : DMAController × Devices R H Cb) :
    Prop where
  busy : p.1.busy = false
  transferredBytes : p.1.transferredBytes.toNat = k
  completed : p.1.completed = true ↔ k = length
  error : p.1.error = true ↔ k ≠ length
  size : p.2.memory.size = m.size
  /-- The bytes of the destination are those of the source, or repeat its beginning. -/
  copied : ∀ i, i < k → p.2.memory.storage[dst + i]? = m.storage[copySource src dst i]?
  unchanged : ∀ i, i < dst ∨ dst + k ≤ i → p.2.memory.storage[i]? = m.storage[i]?

namespace MemoryTransfer

variable (t : MemoryTransfer dma dev)

include t

omit [DecidableEq R] in
theorem fitting_eq {k : ℕ} (hk : k = dma.fitting dev) : k ≤ dma.length.toNat ∧
    dma.sourceAddress.toNat + k ≤ dev.memory.storage.length ∧
    dma.destinationAddress.toNat + k ≤ dev.memory.storage.length := by
  have hs : dma.sourceAddress.toNat < dev.memory.storage.length := t.src_lt
  have hd : dma.destinationAddress.toNat < dev.memory.storage.length := t.dst_lt
  unfold fitting Memory.size at hk
  omega

omit [DecidableEq R] in
/-- The result of a transfer whose memory is that after `k` bytes. -/
theorem transferred {k : ℕ} {p : DMAController × Devices R H Cb} (hk : k = dma.fitting dev)
    (hm : p.2.memory = (dma.copied dev k).memory) (hb : p.1.busy = false)
    (hn : p.1.transferredBytes = UInt64.ofNat k)
    (hc : p.1.completed = true ↔ k = dma.length.toNat)
    (he : p.1.error = true ↔ k ≠ dma.length.toNat) :
    Transferred dev.memory dma.sourceAddress.toNat dma.destinationAddress.toNat dma.length.toNat k
      p := by
  obtain ⟨hlen, hsrc, hdst⟩ := t.fitting_eq hk
  have hstorage (i : ℕ) := getElem?_forwardCopy hsrc hdst i
  change ∀ i, (dma.copied dev k).memory.storage[i]? = _ at hstorage
  rw [← hm] at hstorage
  refine ⟨hb, ?_, hc, he, by rw [hm, size_copied], ?_, ?_⟩
  · have := dma.length.toNat_lt
    rw [hn, UInt64.toNat_ofNat']
    omega
  · intro i hi
    rw [hstorage, if_pos (by omega), Nat.add_sub_cancel_left]
  · intro i hi
    rw [hstorage, if_neg (by omega)]

omit [DecidableEq R] in
theorem start_eq : dma.start dev = (.ok true, dma.progress 0, dev) := by
  have hs : dma.isMemory dev dma.sourceAddress = true := by
    have := t.src_lt
    simpa [isMemory, t.memory, Memory.isValidAddress, Memory.size] using this
  have hd : dma.isMemory dev dma.destinationAddress = true := by
    have := t.dst_lt
    simpa [isMemory, t.memory, Memory.isValidAddress, Memory.size] using this
  have hne : ¬ dma.length = 0 := fun h => by
    have := t.length_pos
    rw [h] at this
    cases this
  rw [start, if_neg (by simp [t.memory]), if_neg hne]
  simp [hs, hd, progress]

theorem steps_busy {n : ℕ} (h : n < dma.duration dev) :
    steps noop n (dma.progress 0) dev = (dma.progress n, dma.copied dev n) := by
  have hle := (t.fitting_eq rfl).1
  unfold duration at h
  split_ifs at h with hfit
  · exact t.steps_progress (by omega) h
  · exact t.steps_progress (by omega) (by omega)

theorem steps_over {n : ℕ} (h : dma.duration dev ≤ n) :
    Transferred dev.memory dma.sourceAddress.toNat dma.destinationAddress.toNat dma.length.toNat
      (dma.fitting dev) (steps noop n (dma.progress 0) dev) := by
  obtain ⟨m, rfl⟩ := Nat.exists_eq_add_of_le h
  unfold duration
  split_ifs with hfit
  · obtain ⟨h1, h2⟩ := t.steps_complete noop hfit
    rw [steps_of_not_busy (by rw [h1])]
    refine t.transferred rfl (by rw [h2, hfit]) (by rw [h1]) (by rw [h1, hfit]; rfl) ?_ ?_ <;>
      rw [h1]
    · exact iff_of_true rfl hfit
    · exact iff_of_false Bool.false_ne_true (not_not.2 hfit)
  · have hfail := t.steps_fail noop hfit
    rw [steps_of_not_busy (by rw [hfail]; rfl), hfail]
    exact t.transferred rfl rfl rfl rfl (iff_of_false Bool.false_ne_true hfit)
      (iff_of_true rfl hfit)

end MemoryTransfer

/-- **Memory-to-memory transfer.**  After `configure` and `start`, the transfer is busy for as many
steps as there are bytes that fit into the memory; it then completes if all of them do, and fails
in the next step if not. -/
theorem memory_to_memory (dma : DMAController) (dev : Devices R H Cb) (noop : Cb)
    {src dst length : UInt64} (hmem : dma.memory = true) (hidle : dma.busy = false)
    (hlength : 0 < length.toNat)
    (hsrc : src.toNat < dev.memory.size) (hdst : dst.toNat < dev.memory.size)
    (hsrcEnd : src.toNat + length.toNat < 2 ^ 64) (hdstEnd : dst.toNat + length.toNat < 2 ^ 64)
    (hsrcInc : (dma.configure dev src dst length).2.srcIncrement = true)
    (hdstInc : (dma.configure dev src dst length).2.dstIncrement = true)
    (hunmapped : ∀ a, InRange src length a ∨ InRange dst length a → dma.Unmapped dev a) :
    let k := min length.toNat (min (dev.memory.size - src.toNat) (dev.memory.size - dst.toNat))
    let duration := if k = length.toNat then length.toNat else k + 1
    (dma.configure dev src dst length).1 = true ∧
      ∃ started, (dma.configure dev src dst length).2.start dev = (.ok true, started, dev) ∧
        (∀ n, n < duration → (steps noop n started dev).1.busy = true ∧
          (steps noop n started dev).1.completed = false ∧
          (steps noop n started dev).1.error = false) ∧
        ∀ n, duration ≤ n → Transferred dev.memory src.toNat dst.toNat length.toNat k
          (steps noop n started dev) := by
  intro k duration
  have hok : (dma.configure dev src dst length).1 = true := by simp [configure, hidle]
  generalize hconf : (dma.configure dev src dst length).2 = conf at *
  obtain ⟨rfl, rfl, rfl, hm, hu⟩ : conf.sourceAddress = src ∧ conf.destinationAddress = dst ∧
      conf.length = length ∧ conf.memory = true ∧
        ∀ a, dma.Unmapped dev a → conf.Unmapped dev a := by
    rw [← hconf, configure, if_neg (by simp [hidle])]
    exact ⟨rfl, rfl, rfl, hmem, fun _ h => h⟩
  have t : MemoryTransfer conf dev := ⟨hm, hsrcInc, hdstInc, hlength, hsrc, hdst, hsrcEnd, hdstEnd,
    fun a ha => hu a (hunmapped a (.inl ha)), fun a ha => hu a (hunmapped a (.inr ha))⟩
  refine ⟨hok, conf.progress 0, t.start_eq, ?_, fun n hn => t.steps_over hn⟩
  intro n hn
  rw [t.steps_busy hn]
  exact ⟨rfl, rfl, rfl⟩

end

/-- A memory of six bytes. -/
def sixBytes : Devices Empty Unit Unit where
  memory := ⟨[10, 11, 12, 13, 14, 15]⟩
  mmioBus := .empty
  registers := Empty.elim
  uart := ⟨0x40003000, .new 0, .new 1, .new 0, .new 115200, [], []⟩
  interruptController := .init
  scheduler := .init

/-- Copying eight bytes from address 0 to address 2 repeats the first two bytes up to the end of
the memory, and fails. -/
theorem memory_to_memory_sixBytes :
    ∃ started, ((new true true true true).configure sixBytes 0 2 8).2.start sixBytes =
        (.ok true, started, sixBytes) ∧
      (steps () 5 started sixBytes).1.error = true ∧
      (steps () 5 started sixBytes).2.memory.storage[5]? = some 11 := by
  have hunmapped : ∀ a, InRange 0 8 a ∨ InRange 2 8 a →
      (new true true true true).Unmapped sixBytes a := by
    intro a ha
    have hne : a ≠ 0x40003000 := by
      rintro rfl
      revert ha
      unfold InRange
      decide
    exact ⟨by simpa [isUartData, new, sixBytes, UART.dataAddress, UART.dataOffset] using hne,
      by simp [isMmioReg, sixBytes, MMIOBus.contains, MMIOBus.empty]⟩
  obtain ⟨-, started, hstart, -, hover⟩ := memory_to_memory (new true true true true) sixBytes ()
    rfl rfl (by decide) (by decide) (by decide) (by decide) (by decide) (by decide) (by decide)
    hunmapped
  have h := hover 5 (by decide)
  exact ⟨started, hstart, h.error.2 (by decide), (h.copied 3 (by decide)).trans (by decide)⟩

end DMAController

end Drivers

end EFS
