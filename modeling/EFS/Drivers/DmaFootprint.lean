import EFS.Drivers.DmaFailure
import EFS.Data.Footprint

/-!
# The footprint of a memory-to-memory transfer

A controller whose transfer is between two ranges of the memory goes on by itself: what a step does
to it does not depend on the memory (`next`), and what it does to the memory is to copy one byte
from the source range to the destination range (`effect`).
-/

namespace EFS

namespace Drivers

open EFS.Mmio EFS.Kernel EFS.System

namespace DMAController

/-- What a step does to a controller whose transfer does not fail. -/
def next (dma : DMAController) : DMAController :=
  if dma.busy then
    if dma.advanced.length ≤ dma.advanced.transferredBytes then
      { dma.advanced with busy := false, completed := true }
    else dma.advanced
  else dma

/-- What it does to the memory. -/
def effect (dma : DMAController) (m : Memory) : Memory :=
  if dma.busy then ⟨copyOne dma.currentSrc.toNat dma.currentDst.toNat m.storage⟩ else m

/-- The addresses that a full transfer with source increment reads. -/
def srcRange (dma : DMAController) : Set ℕ :=
  {a | dma.sourceAddress.toNat ≤ a ∧ a < dma.sourceAddress.toNat + dma.length.toNat}

/-- The addresses that a full transfer with destination increment writes. -/
def dstRange (dma : DMAController) : Set ℕ :=
  {a | dma.destinationAddress.toNat ≤ a ∧ a < dma.destinationAddress.toNat + dma.length.toNat}

variable {R H Cb : Type}

/-- Both ranges are inside the memory, and nothing else decodes their addresses. -/
structure MemoryToMemory (dma : DMAController) (dev : Devices R H Cb) : Prop where
  memory : dma.memory = true
  src_end : dma.sourceAddress.toNat + dma.length.toNat ≤ dev.memory.size
  dst_end : dma.destinationAddress.toNat + dma.length.toNat ≤ dev.memory.size
  src_unmapped : ∀ a : Address, a.toNat ∈ dma.srcRange → dma.Unmapped dev a
  dst_unmapped : ∀ a : Address, a.toNat ∈ dma.dstRange → dma.Unmapped dev a

variable (R H Cb) in
/-- The controller is as a successful `start` has left it. -/
def Started (dma : DMAController) : Prop :=
  ∃ (c : DMAController) (dev dev' : Devices R H Cb), c.start dev = (.ok true, dma, dev')

/-- The completion interrupt is that of a line. -/
def LineExists (dma : DMAController) : Prop :=
  dma.interruptController = true → dma.interruptId.toNat < maxInterrupts

/-- A busy controller has bytes left, and its addresses are where these are. -/
structure InProgress (dma : DMAController) : Prop where
  src_end : dma.sourceAddress.toNat + dma.length.toNat < 2 ^ 64
  dst_end : dma.destinationAddress.toNat + dma.length.toNat < 2 ^ 64
  left : dma.BytesLeft
  currentSrc : dma.busy = true → dma.currentSrc.toNat = dma.sourceAddress.toNat +
    if dma.srcIncrement then dma.transferredBytes.toNat else 0
  currentDst : dma.busy = true → dma.currentDst.toNat = dma.destinationAddress.toNat +
    if dma.dstIncrement then dma.transferredBytes.toNat else 0

variable {dma : DMAController} {dev : Devices R H Cb} {noop : Cb}

theorem inProgress_of_started (h : dma.Started R H Cb)
    (hs : dma.sourceAddress.toNat + dma.length.toNat < 2 ^ 64)
    (hd : dma.destinationAddress.toNat + dma.length.toNat < 2 ^ 64) : dma.InProgress := by
  obtain ⟨c, dev, dev', h⟩ := h
  unfold start at h
  split_ifs at h with hattached hlength
  · simp at h
  · -- no bytes: the transfer is over
    have hidle : dma.busy = false := by
      dsimp only at h
      split at h
      · exact (congrArg (fun r => r.2.1.busy) h).symm
      · cases h
    have hnot : ¬ dma.busy = true := Bool.eq_false_iff.1 hidle
    exact ⟨hs, hd, fun hbusy => absurd hbusy hnot, fun hbusy => absurd hbusy hnot,
      fun hbusy => absurd hbusy hnot⟩
  · dsimp only at h
    split_ifs at h
    · simp at h
    · have hdma := (congrArg (fun r => r.2.1) h).symm
      dsimp only at hdma
      subst hdma
      refine ⟨hs, hd, fun _ => UInt64.pos_iff_ne_zero.2 hlength, ?_, ?_⟩
      · intro _
        simp
      · intro _
        simp

/-! ### One step -/

section

variable (h : dma.InProgress)

include h

theorem currentSrc_mem (hbusy : dma.busy = true) : dma.currentSrc.toNat ∈ dma.srcRange := by
  have hlt := UInt64.lt_iff_toNat_lt.1 (h.left hbusy)
  have hsrc := h.currentSrc hbusy
  constructor
  · omega
  · split_ifs at hsrc <;> omega

theorem currentDst_mem (hbusy : dma.busy = true) : dma.currentDst.toNat ∈ dma.dstRange := by
  have hlt := UInt64.lt_iff_toNat_lt.1 (h.left hbusy)
  have hdst := h.currentDst hbusy
  constructor
  · omega
  · split_ifs at hdst <;> omega

end

theorem toNat_next_address {base current moved : UInt64} {increment : Bool} {bound : ℕ}
    (hbound : base.toNat + bound < 2 ^ 64) (hlt : moved.toNat < bound)
    (hmoved : (moved + 1).toNat = moved.toNat + 1)
    (hcurrent : current.toNat = base.toNat + if increment then moved.toNat else 0) :
    (if increment then current + 1 else current).toNat =
      base.toNat + if increment then (moved + 1).toNat else 0 := by
  cases increment with
  | true =>
    simp only [if_true] at hcurrent ⊢
    rw [hmoved, UInt64.toNat_add, hcurrent]
    change (_ + 1) % 2 ^ 64 = _
    omega
  | false => exact hcurrent

theorem inProgress_next (h : dma.InProgress) : dma.next.InProgress := by
  unfold next
  split_ifs with hbusy hlength
  · exact ⟨h.src_end, h.dst_end, fun hbusy => absurd hbusy Bool.false_ne_true,
      fun hbusy => absurd hbusy Bool.false_ne_true, fun hbusy => absurd hbusy Bool.false_ne_true⟩
  · have hlt := UInt64.lt_iff_toNat_lt.1 (h.left hbusy)
    have hmoved := toNat_moved (h.left hbusy)
    exact ⟨h.src_end, h.dst_end, fun _ => UInt64.not_le.1 hlength,
      fun _ => toNat_next_address h.src_end hlt hmoved (h.currentSrc hbusy),
      fun _ => toNat_next_address h.dst_end hlt hmoved (h.currentDst hbusy)⟩
  · exact h

/-- A step that moves a byte within the memory. -/
theorem step_memoryToMemory [DecidableEq R] (hm : dma.MemoryToMemory dev) (h : dma.InProgress)
    (hline : dma.LineExists) : ∃ dev', dma.step dev noop = ((dma.next, dev'), none) ∧
      dev'.memory = dma.effect dev.memory ∧ dev'.mmioBus = dev.mmioBus ∧ dev'.uart = dev.uart := by
  by_cases hbusy : dma.busy = true
  · obtain ⟨-, hsrc⟩ := currentSrc_mem h hbusy
    obtain ⟨-, hdst⟩ := currentDst_mem h hbusy
    have hsrc' : dma.currentSrc.toNat < dev.memory.storage.length := lt_of_lt_of_le hsrc hm.src_end
    have hdst' : dma.currentDst.toNat < dev.memory.size := lt_of_lt_of_le hdst hm.dst_end
    obtain ⟨byte, hbyte⟩ : ∃ byte, dev.memory.storage[dma.currentSrc.toNat]? = some byte :=
      ⟨_, List.getElem?_eq_getElem hsrc'⟩
    have hfetch := fetch_memory (hm.src_unmapped _ (currentSrc_mem h hbusy)) hm.memory hbyte
    have hdeposit :=
      deposit_memory (hm.dst_unmapped _ (currentDst_mem h hbusy)) hm.memory hdst' byte
    set written : Devices R H Cb :=
      { dev with memory := ⟨dev.memory.storage.set dma.currentDst.toNat byte⟩ } with hwritten
    obtain ⟨dev', thrown, hcomplete, hsame, hthrown⟩ := complete_spec dma.advanced written noop
    obtain rfl := hthrown hline
    refine ⟨dev', ?_, ?_, hsame.mmioBus, hsame.uart⟩
    · rw [step_of_busy hbusy h.left, hfetch, next, if_pos hbusy]
      simp only [hdeposit, hcomplete]
    · rw [hsame.memory, effect, if_pos hbusy, copyOne, hbyte]
  · refine ⟨dev, ?_, ?_, rfl, rfl⟩
    · rw [step, if_pos hbusy, next, if_neg hbusy]
    · rw [effect, if_neg hbusy]

/-! ### The footprint of a transfer -/

/-- What the memory holds at an address. -/
def cell (m : Memory) (a : ℕ) : Option UInt8 := m.storage[a]?

theorem size_effect (dma : DMAController) (m : Memory) : (dma.effect m).size = m.size := by
  unfold effect
  split_ifs
  · exact length_copyOne ..
  · rfl

theorem cell_copyOne (src dst : ℕ) (m : Memory) (a : ℕ) :
    cell ⟨copyOne src dst m.storage⟩ a =
      if a = dst then (cell m src).elim (cell m a) fun v => (cell m a).map fun _ => v
      else cell m a := by
  unfold cell copyOne
  rcases m.storage[src]? with _ | v
  · simp
  · by_cases ha : a = dst
    · rw [if_pos ha, ha, List.getElem?_set', if_pos rfl]
      rfl
    · rw [if_neg ha]
      exact List.getElem?_set_ne (Ne.symm ha)

theorem footprint_effect (h : dma.InProgress) :
    Footprint cell (dma.srcRange ∪ dma.dstRange) dma.dstRange dma.effect where
  keeps m a ha := by
    unfold effect
    split_ifs with hbusy
    · have hne : a ≠ dma.currentDst.toNat := by
        rintro rfl
        exact ha (currentDst_mem h hbusy)
      rw [cell_copyOne, if_neg hne]
    · rfl
  congr m m' hagree := by
    intro a ha
    unfold effect
    split_ifs with hbusy
    · rw [cell_copyOne, cell_copyOne, hagree a ha, hagree _ (.inl (currentSrc_mem h hbusy))]
    · exact hagree a ha

theorem srcRange_next (dma : DMAController) : dma.next.srcRange = dma.srcRange := by
  unfold next
  split_ifs <;> rfl

theorem dstRange_next (dma : DMAController) : dma.next.dstRange = dma.dstRange := by
  unfold next
  split_ifs <;> rfl

/-- What a controller needs so that its transfer does not fail. -/
structure Ready (dma : DMAController) (dev : Devices R H Cb) : Prop where
  memoryToMemory : dma.MemoryToMemory dev
  inProgress : dma.InProgress
  line : dma.LineExists

theorem Ready.of_same {dev' : Devices R H Cb} (h : dma.Ready dev)
    (hsize : dev'.memory.size = dev.memory.size) (hmmio : dev'.mmioBus = dev.mmioBus)
    (huart : dev'.uart = dev.uart) : dma.Ready dev' := by
  have hunmapped (a : Address) : dma.Unmapped dev a → dma.Unmapped dev' a := by
    unfold Unmapped isUartData isMmioReg
    rw [hmmio, huart]
    exact id
  exact ⟨⟨h.memoryToMemory.memory, by rw [hsize]; exact h.memoryToMemory.src_end,
    by rw [hsize]; exact h.memoryToMemory.dst_end,
    fun a ha => hunmapped a (h.memoryToMemory.src_unmapped a ha),
    fun a ha => hunmapped a (h.memoryToMemory.dst_unmapped a ha)⟩, h.inProgress, h.line⟩

theorem Ready.next (h : dma.Ready dev) : dma.next.Ready dev := by
  refine ⟨?_, inProgress_next h.inProgress, ?_⟩
  · unfold DMAController.next
    split_ifs <;> exact ⟨h.memoryToMemory.memory, h.memoryToMemory.src_end,
      h.memoryToMemory.dst_end, h.memoryToMemory.src_unmapped, h.memoryToMemory.dst_unmapped⟩
  · unfold DMAController.next
    split_ifs <;> exact h.line

/-- The controller after `k` steps. -/
def after (dma : DMAController) (k : ℕ) : DMAController := next^[k] dma

theorem after_succ (dma : DMAController) (k : ℕ) : dma.after (k + 1) = (dma.after k).next :=
  Function.iterate_succ_apply' ..

theorem ranges_after (dma : DMAController) (k : ℕ) :
    (dma.after k).srcRange = dma.srcRange ∧ (dma.after k).dstRange = dma.dstRange := by
  induction k with
  | zero => exact ⟨rfl, rfl⟩
  | succ k ih => rw [after_succ, srcRange_next, dstRange_next]; exact ih

theorem Ready.after (h : dma.Ready dev) (k : ℕ) : (dma.after k).Ready dev := by
  induction k with
  | zero => exact h
  | succ k ih => rw [after_succ]; exact ih.next

theorem Ready.footprint (h : dma.Ready dev) (k : ℕ) :
    Footprint cell (dma.srcRange ∪ dma.dstRange) dma.dstRange (dma.after k).effect := by
  have hfootprint := footprint_effect (h.after k).inProgress
  rwa [(ranges_after dma k).1, (ranges_after dma k).2] at hfootprint

end DMAController

end Drivers

end EFS
