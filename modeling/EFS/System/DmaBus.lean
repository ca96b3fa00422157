import EFS.Drivers.DmaFootprint
import EFS.System.SimulationClock

/-!
# DMA controllers on the system bus

`SystemBus` steps the DMA controllers that are attached to it once a tick, in the order in which
they were attached.  They share the memory.  If none of them writes to what another one reads or
writes, each transfer goes on as if its controller were alone (`transfers_independent`).

This holds as long as no completion throws: a completion interrupt whose id is not that of a line
leaves `tickTimers`, and the controllers behind it miss the tick.
-/

namespace EFS

namespace System

open EFS.Drivers EFS.Kernel

/-- A `SystemBus` with DMA controllers `D` as the only objects that it ticks. -/
structure DmaBus (D R H Cb : Type) where
  clock : SimulationClock
  dev : Devices R H Cb
  /-- `m_memory` is not null. -/
  memory : Bool
  /-- `m_mmioBus` is not null. -/
  mmioBus : Bool
  /-- `m_interruptController` is not null. -/
  interruptController : Bool
  /-- `m_uart` is not null. -/
  uart : Bool
  /-- The controllers attached to the bus, in order. -/
  dmas : List D
  /-- The controller objects. -/
  dma : D → DMAController

namespace DmaBus

variable {D R H Cb : Type} [DecidableEq D] [DecidableEq R] (b : DmaBus D R H Cb) (noop : Cb)

/-- What `attachDMA` does to a controller : it gets the pointers that the bus has. -/
def attached (dma : DMAController) : DMAController :=
  let dma := if b.memory then dma.attachMemory else dma
  let dma := if b.mmioBus then dma.attachMMIO else dma
  let dma := if b.interruptController then dma.attachInterruptController dma.interruptId else dma
  let dma := if b.uart then dma.attachUART else dma
  dma.attachScheduler

/-- `attachDMA` : a controller that is attached is refused. -/
def attachDMA (d : D) : Bool × DmaBus D R H Cb :=
  if d ∈ b.dmas then (false, b)
  else (true, { b with
    dma := Function.update b.dma d (b.attached (b.dma d))
    dmas := b.dmas ++ [d] })

/-- The loop of `tickTimers` over the controllers, left by the first exception. -/
def tickEach : DmaBus D R H Cb → List D → DmaBus D R H Cb × Option String
  | b, [] => (b, none)
  | b, d :: ds =>
    match (b.dma d).step b.dev noop with
    | ((dma, dev), none) => tickEach { b with dma := Function.update b.dma d dma, dev } ds
    | ((dma, dev), some e) => ({ b with dma := Function.update b.dma d dma, dev }, some e)

/-- `tickTimers`. -/
def tickTimers : DmaBus D R H Cb × Option String :=
  { b with clock := b.clock.tick 1 }.tickEach noop b.dmas

/-- The bus after `n` calls of `tickTimers()`, of which some may have thrown. -/
def ticks (n : ℕ) : DmaBus D R H Cb := (fun b => (b.tickTimers noop).1)^[n] b

/-- Controllers are attached in this order. -/
def attachEach (order : List D) : DmaBus D R H Cb :=
  order.foldl (fun b d => (b.attachDMA d).2) b

/-- A call of a controller, by its owner. -/
def call (c : D × DMAController.Op R H Cb) : DmaBus D R H Cb :=
  let s := (⟨b.dma c.1, b.dev, []⟩ : DMAController.Signals R H Cb).perform noop c.2
  { b with dma := Function.update b.dma c.1 s.dma, dev := s.dev }

/-- The bus after calls of its controllers, one after the other. -/
def callEach (cs : List (D × DMAController.Op R H Cb)) : DmaBus D R H Cb :=
  cs.foldl (fun b c => b.call noop c) b

/-! ### Attaching -/

variable {b}

omit [DecidableEq R] in
/-- Controllers that are not attached yet are attached in the given order, each in the same way. -/
theorem attachEach_eq {order : List D} (hnodup : order.Nodup) (hnew : ∀ d ∈ order, d ∉ b.dmas) :
    b.attachEach order = { b with
      dmas := b.dmas ++ order
      dma := fun d => if d ∈ order then b.attached (b.dma d) else b.dma d } := by
  induction order generalizing b with
  | nil => simp [attachEach]
  | cons d order ih =>
    obtain ⟨hd, hnodup⟩ := List.nodup_cons.1 hnodup
    have hattach : (b.attachDMA d).2 = { b with
        dma := Function.update b.dma d (b.attached (b.dma d))
        dmas := b.dmas ++ [d] } := by
      rw [attachDMA, if_neg (hnew d List.mem_cons_self)]
    have hnew' : ∀ e ∈ order, e ∉ (b.attachDMA d).2.dmas := by
      intro e he
      rw [hattach, List.mem_append, List.mem_singleton, not_or]
      exact ⟨hnew e (List.mem_cons_of_mem _ he), fun heq => hd (heq ▸ he)⟩
    change (b.attachDMA d).2.attachEach order = _
    rw [ih hnodup hnew', hattach]
    simp only [List.append_assoc, List.singleton_append, mk.injEq, true_and]
    funext e
    by_cases he : e = d
    · subst he
      simp [hd]
    · simp [he]
      rfl

omit [DecidableEq R] in
theorem attachEach_perm {order order' : List D} (h : order'.Perm order) (hnodup : order.Nodup)
    (hnone : b.dmas = []) : b.attachEach order' = { b.attachEach order with dmas := order' } := by
  have hnew (l : List D) : ∀ d ∈ l, d ∉ b.dmas := by simp [hnone]
  rw [attachEach_eq (h.nodup_iff.2 hnodup) (hnew _), attachEach_eq hnodup (hnew _)]
  simp [hnone, h.mem_iff]

theorem callEach_withDmas (cs : List (D × DMAController.Op R H Cb)) (l : List D) :
    { b with dmas := l }.callEach noop cs = { b.callEach noop cs with dmas := l } := by
  induction cs generalizing b with
  | nil => rfl
  | cons c cs ih =>
    change (({ b with dmas := l } : DmaBus D R H Cb).call noop c).callEach noop cs = _
    exact ih (b := b.call noop c)

theorem dmas_callEach (cs : List (D × DMAController.Op R H Cb)) :
    (b.callEach noop cs).dmas = b.dmas := by
  induction cs generalizing b with
  | nil => rfl
  | cons c cs ih => exact ih

/-! ### Ticks -/

/-- What the ticks of `l` have done: each controller has made a step, within the memory. -/
structure Ticked (b b' : DmaBus D R H Cb) (l : List D) : Prop where
  dmas : b'.dmas = b.dmas
  dma : ∀ d, b'.dma d = if d ∈ l then (b.dma d).next else b.dma d
  memory : b'.dev.memory = round (fun d => (b.dma d).effect) l b.dev.memory
  mmioBus : b'.dev.mmioBus = b.dev.mmioBus
  uart : b'.dev.uart = b.dev.uart

omit [DecidableEq D] [DecidableEq R] in
theorem size_round (f : D → DMAController) (l : List D) (m : Memory) :
    (round (fun d => (f d).effect) l m).size = m.size := by
  induction l generalizing m with
  | nil => rfl
  | cons d l ih => exact (ih _).trans ((f d).size_effect m)

omit [DecidableEq R] in
theorem Ticked.dma_of_notMem {b b' : DmaBus D R H Cb} {l : List D} {d : D} (h : Ticked b b' l)
    (hd : d ∉ l) : b'.dma d = b.dma d := by
  rw [h.dma, if_neg hd]

omit [DecidableEq R] in
/-- The rest of a loop after its first turn. -/
theorem Ticked.cons {b b₁ b' : DmaBus D R H Cb} {d : D} {l : List D} (hfirst : Ticked b b₁ [d])
    (h : Ticked b₁ b' l) (hd : d ∉ l) : Ticked b b' (d :: l) where
  dmas := h.dmas.trans hfirst.dmas
  dma e := by
    rw [h.dma, hfirst.dma]
    by_cases he : e = d
    · subst he
      rw [if_neg hd, if_pos (List.mem_singleton_self e), if_pos List.mem_cons_self]
    · simp only [List.mem_cons, he, false_or, List.not_mem_nil, if_false]
  memory := by
    have hround : round (fun d => (b.dma d).effect) (d :: l) b.dev.memory =
        round (fun d => (b.dma d).effect) l b₁.dev.memory := by rw [hfirst.memory]; rfl
    rw [h.memory, hround]
    refine round_congr (fun e he => congrArg DMAController.effect (hfirst.dma_of_notMem ?_)) _
    exact fun hmem => hd (List.mem_singleton.1 hmem ▸ he)
  mmioBus := h.mmioBus.trans hfirst.mmioBus
  uart := h.uart.trans hfirst.uart

/-- The first turn of the loop: a controller makes its step, and the others stay ready. -/
theorem tickEach_cons {d : D} {l : List D} (hnodup : (d :: l).Nodup)
    (hready : ∀ e ∈ d :: l, (b.dma e).Ready b.dev) :
    ∃ b₁, b.tickEach noop (d :: l) = b₁.tickEach noop l ∧
      ((b.dma d).step b.dev noop).1.2 = b₁.dev ∧ Ticked b b₁ [d] ∧
      ∀ e ∈ l, (b₁.dma e).Ready b₁.dev := by
  have hr := hready d List.mem_cons_self
  obtain ⟨dev', hstep, hmemory, hmmio, huart⟩ :=
    DMAController.step_memoryToMemory hr.memoryToMemory hr.inProgress hr.line
  have hsize : dev'.memory.size = b.dev.memory.size := by
    rw [hmemory, DMAController.size_effect]
  let b₁ : DmaBus D R H Cb :=
    { b with dma := Function.update b.dma d (b.dma d).next, dev := dev' }
  have hother {e : D} (he : e ≠ d) : b₁.dma e = b.dma e := Function.update_of_ne he ..
  refine ⟨b₁, ?_, ?_, ⟨rfl, fun e => ?_, hmemory, hmmio, huart⟩, fun e he => ?_⟩
  · rw [tickEach, hstep]
  · rw [hstep]
  · by_cases he : e = d
    · subst he
      rw [if_pos (List.mem_singleton_self e)]
      exact Function.update_self ..
    · rw [if_neg (mt List.mem_singleton.1 he), hother he]
  · rw [hother (ne_of_mem_of_not_mem he (List.nodup_cons.1 hnodup).1)]
    exact (hready e (List.mem_cons_of_mem _ he)).of_same hsize hmmio huart

/-- **Loop lemma.**  Each controller makes its step. -/
theorem tickEach_spec {l : List D} (hnodup : l.Nodup)
    (hready : ∀ d ∈ l, (b.dma d).Ready b.dev) :
    ∃ b', b.tickEach noop l = (b', none) ∧ Ticked b b' l := by
  induction l generalizing b with
  | nil => exact ⟨b, rfl, rfl, fun d => rfl, rfl, rfl, rfl⟩
  | cons d l ih =>
    obtain ⟨hd, hnodup'⟩ := List.nodup_cons.1 hnodup
    obtain ⟨b₁, hcons, -, hfirst, hready₁⟩ := tickEach_cons noop hnodup hready
    obtain ⟨b', htick, h⟩ := ih hnodup' hready₁
    exact ⟨b', hcons.trans htick, hfirst.cons h hd⟩

/-- Every attached controller is ready. -/
structure AllReady (b : DmaBus D R H Cb) : Prop where
  nodup : b.dmas.Nodup
  ready : ∀ d ∈ b.dmas, (b.dma d).Ready b.dev

theorem AllReady.tickTimers (h : b.AllReady) :
    (b.tickTimers noop).2 = none ∧ Ticked b (b.tickTimers noop).1 b.dmas ∧
      (b.tickTimers noop).1.AllReady := by
  obtain ⟨b', htick, ht⟩ := tickEach_spec (b := { b with clock := b.clock.tick 1 }) noop h.nodup
    h.ready
  have hticked : Ticked b b' b.dmas := ⟨ht.dmas, ht.dma, ht.memory, ht.mmioBus, ht.uart⟩
  rw [DmaBus.tickTimers, htick]
  refine ⟨rfl, hticked, ht.dmas ▸ h.nodup, ?_⟩
  intro d hd
  have hd : d ∈ b.dmas := ht.dmas ▸ hd
  rw [hticked.dma, if_pos hd]
  refine (h.ready d hd).next.of_same ?_ ht.mmioBus ht.uart
  rw [hticked.memory, size_round]

/-- **Run lemma.**  After `n` ticks each controller has made `n` steps, in rounds. -/
theorem AllReady.ticks (h : b.AllReady) (n : ℕ) :
    (b.ticks noop n).AllReady ∧ (b.ticks noop n).dmas = b.dmas ∧
      (∀ d ∈ b.dmas, (b.ticks noop n).dma d = (b.dma d).after n) ∧
      (b.ticks noop n).dev.memory =
        rounds (fun k d => ((b.dma d).after k).effect) b.dmas b.dev.memory n := by
  induction n with
  | zero => exact ⟨h, rfl, fun _ _ => rfl, rfl⟩
  | succ n ih =>
    obtain ⟨hready, hdmas, hdma, hmemory⟩ := ih
    obtain ⟨-, ht, hready'⟩ := hready.tickTimers noop
    have hsucc : b.ticks noop (n + 1) = ((b.ticks noop n).tickTimers noop).1 :=
      Function.iterate_succ_apply' ..
    rw [hsucc]
    refine ⟨hready', ht.dmas.trans hdmas, ?_, ?_⟩
    · intro d hd
      rw [ht.dma, hdmas, if_pos hd, hdma d hd, DMAController.after_succ]
    · rw [ht.memory, hdmas, hmemory]
      exact round_congr (fun d hd => congrArg DMAController.effect (hdma d hd)) _

/-! ### Independence -/

/-- The bus with this controller as the only one attached. -/
def only (b : DmaBus D R H Cb) (d : D) : DmaBus D R H Cb := { b with dmas := [d] }

theorem memory_eq {m m' : Memory} (h : ∀ a, DMAController.cell m a = DMAController.cell m' a) :
    m = m' := by
  cases m
  cases m'
  exact congrArg Memory.mk (List.ext_getElem? h)

/-- Each controller has a transfer started between two ranges of the memory, and no one writes to a
range of another one. -/
structure DisjointTransfers (b : DmaBus D R H Cb) (order : List D) : Prop where
  size : b.dev.memory.size < 2 ^ 64
  started : ∀ d ∈ order, (b.dma d).Started R H Cb
  memoryToMemory : ∀ d ∈ order, (b.dma d).MemoryToMemory b.dev
  disjoint : ∀ d ∈ order, ∀ e ∈ order, d ≠ e →
    Disjoint (b.dma d).dstRange ((b.dma e).srcRange ∪ (b.dma e).dstRange)

/-- **Independent transfers.**  Controllers are attached in some order, and called in any way that
leaves them with disjoint transfers and completion interrupts that exist.  Then no tick throws, each
destination holds what it would hold if its controller were alone, everything else is kept, and the
order of attaching does not matter. -/
theorem transfers_independent (b₀ : DmaBus D R H Cb) (order : List D)
    (cs : List (D × DMAController.Op R H Cb)) (b : DmaBus D R H Cb)
    (hb : b = (b₀.attachEach order).callEach noop cs)
    (hnone : b₀.dmas = []) (hnodup : order.Nodup) (htransfers : b.DisjointTransfers order)
    (hline : ∀ d ∈ order, (b.dma d).LineExists) (t : ℕ) :
    ((b.ticks noop t).tickTimers noop).2 = none ∧
      (∀ d ∈ order, ∀ a ∈ (b.dma d).dstRange,
        (b.ticks noop t).dev.memory.storage[a]? =
          ((b.only d).ticks noop t).dev.memory.storage[a]?) ∧
      (∀ a, (∀ d ∈ order, a ∉ (b.dma d).dstRange) →
        (b.ticks noop t).dev.memory.storage[a]? = b.dev.memory.storage[a]?) ∧
      ∀ order', order'.Perm order →
        (((b₀.attachEach order').callEach noop cs).ticks noop t).dev.memory =
          (b.ticks noop t).dev.memory := by
  have hdmas : b.dmas = order := by
    rw [hb, dmas_callEach, attachEach_eq hnodup (by simp [hnone])]
    simp [hnone]
  have hready : ∀ d ∈ order, (b.dma d).Ready b.dev := by
    intro d hd
    have hm := htransfers.memoryToMemory d hd
    exact ⟨hm, DMAController.inProgress_of_started (htransfers.started d hd)
      (hm.src_end.trans_lt htransfers.size) (hm.dst_end.trans_lt htransfers.size), hline d hd⟩
  have hall : b.AllReady := ⟨hdmas ▸ hnodup, hdmas ▸ hready⟩
  have hfootprint (k : ℕ) : ∀ d ∈ order, Footprint DMAController.cell
      ((b.dma d).srcRange ∪ (b.dma d).dstRange) (b.dma d).dstRange ((b.dma d).after k).effect :=
    fun d hd => (hready d hd).footprint k
  obtain ⟨hready', -, -, hrounds⟩ := hall.ticks noop t
  rw [hdmas] at hrounds
  refine ⟨(hready'.tickTimers noop).1, ?_, ?_, ?_⟩
  · intro d hd a ha
    -- alone
    have honly : (b.only d).AllReady :=
      ⟨List.nodup_singleton d, fun e he => hready e (List.mem_singleton.1 he ▸ hd)⟩
    obtain ⟨-, -, -, hrounds'⟩ := honly.ticks noop t
    rw [hrounds, hrounds']
    have hmem : ∀ e, e ∈ order ∨ e ∈ [d] → e ∈ order :=
      fun e he => he.elim id fun h => List.mem_singleton.1 h ▸ hd
    exact agreeOn_rounds (fun k e he => hfootprint k e (hmem e he)) hnodup
      (List.nodup_singleton d) hd (List.mem_singleton_self d)
      (fun e he hne => htransfers.disjoint e (hmem e he) d hd hne) _ t a (.inr ha)
  · intro a ha
    rw [hrounds]
    exact read_rounds hfootprint ha _ t
  · intro order' h
    -- another order
    have hperm : (b₀.attachEach order').callEach noop cs = { b with dmas := order' } := by
      rw [attachEach_perm h hnodup hnone, callEach_withDmas, hb]
    have hall' : ({ b with dmas := order' } : DmaBus D R H Cb).AllReady :=
      ⟨h.nodup_iff.2 hnodup, fun d hd => hready d (h.mem_iff.1 hd)⟩
    obtain ⟨-, -, -, hrounds'⟩ := hall'.ticks noop t
    rw [hperm]
    refine memory_eq ?_
    intro a
    rw [hrounds, hrounds']
    exact read_rounds_perm h hfootprint hnodup (fun d _ => Set.subset_union_right)
      htransfers.disjoint _ t a

/-- A bus without DMA controllers, and two controllers. -/
def twoDmas : DmaBus Bool Empty Unit Unit where
  clock := .reset
  dev := DMAController.sixBytes
  memory := true
  mmioBus := true
  interruptController := true
  uart := true
  dmas := []
  dma := fun _ => .new false false false false

/-- Each of the two copies one byte; the completion interrupt of the first one has the given id. -/
def oneByteEach (interruptId : UInt8) : List (Bool × DMAController.Op Empty Unit Unit) :=
  [(false, .attachInterruptController true interruptId), (false, .configure 0 3 1), (false, .start),
    (true, .configure 1 4 1), (true, .start)]

/-- The bus with both transfers started. -/
def twoStarted (interruptId : UInt8) : DmaBus Bool Empty Unit Unit :=
  (twoDmas.attachEach [false, true]).callEach () (oneByteEach interruptId)

/-- A controller that is to copy one byte. -/
def oneByteFrom (interruptId : UInt8) (src dst : Mmio.Address) : DMAController :=
  ({ DMAController.new true true true true with interruptId, scheduler := true }.configure
    DMAController.sixBytes src dst 1).2

theorem dma_twoStarted (interruptId : UInt8) :
    (twoStarted interruptId).dma false = (oneByteFrom interruptId 0 3).progress 0 ∧
      (twoStarted interruptId).dma true = (oneByteFrom 0 1 4).progress 0 :=
  ⟨rfl, rfl⟩

theorem transfer_oneByteFrom (interruptId : UInt8) {src dst : Mmio.Address}
    (hsrc : src.toNat < 6) (hdst : dst.toNat < 6)
    (hsrcInc : (oneByteFrom interruptId src dst).srcIncrement = true)
    (hdstInc : (oneByteFrom interruptId src dst).dstIncrement = true) :
    ((oneByteFrom interruptId src dst).progress 0).Started Empty Unit Unit ∧
      ((oneByteFrom interruptId src dst).progress 0).MemoryToMemory DMAController.sixBytes := by
  have hunmapped (dma : DMAController) (start a : Mmio.Address) (hstart : start.toNat < 6)
      (h : start.toNat ≤ a.toNat ∧ a.toNat < start.toNat + 1) :
      dma.Unmapped DMAController.sixBytes a := by
    have hne : a ≠ 0x40003000 := by
      rintro rfl
      change _ ∧ 0x40003000 < _ at h
      omega
    exact ⟨by simpa [DMAController.isUartData, DMAController.sixBytes, UART.dataAddress,
        UART.dataOffset] using fun _ => hne,
      by simp [DMAController.isMmioReg, DMAController.sixBytes, Mmio.MMIOBus.contains,
        Mmio.MMIOBus.empty]⟩
  have ht : (oneByteFrom interruptId src dst).MemoryTransfer DMAController.sixBytes :=
    ⟨rfl, hsrcInc, hdstInc, Nat.one_pos, hsrc, hdst, by change src.toNat + 1 < 2 ^ 64; omega,
      by change dst.toNat + 1 < 2 ^ 64; omega, fun a ha => hunmapped _ src a hsrc ha,
      fun a ha => hunmapped _ dst a hdst ha⟩
  exact ⟨⟨_, _, _, ht.start_eq⟩, rfl, hsrc, hdst, fun a ha => hunmapped _ src a hsrc ha,
    fun a ha => hunmapped _ dst a hdst ha⟩

theorem disjointTransfers_twoStarted (interruptId : UInt8) :
    (twoStarted interruptId).DisjointTransfers [false, true] := by
  have hfirst : ((oneByteFrom interruptId 0 3).progress 0).Started Empty Unit Unit ∧
      ((oneByteFrom interruptId 0 3).progress 0).MemoryToMemory DMAController.sixBytes :=
    transfer_oneByteFrom interruptId (by decide) (by decide) rfl rfl
  have hsecond : ((oneByteFrom 0 1 4).progress 0).Started Empty Unit Unit ∧
      ((oneByteFrom 0 1 4).progress 0).MemoryToMemory DMAController.sixBytes :=
    transfer_oneByteFrom 0 (by decide) (by decide) rfl rfl
  obtain ⟨hdma, hdma'⟩ := dma_twoStarted interruptId
  rw [← hdma] at hfirst
  rw [← hdma'] at hsecond
  have hsize : (twoStarted interruptId).dev.memory.size = 6 := rfl
  refine ⟨by omega, ?_, ?_, ?_⟩
  · intro d _
    cases d with
    | false => exact hfirst.1
    | true => exact hsecond.1
  · intro d _
    cases d with
    | false => exact hfirst.2
    | true => exact hsecond.2
  · intro d _ e _ hne
    rw [Set.disjoint_left]
    intro a
    match d, e with
    | false, false | true, true => exact absurd rfl hne
    | false, true =>
      rw [hdma, hdma']
      change 3 ≤ a ∧ a < 4 → ¬ ((1 ≤ a ∧ a < 2) ∨ (4 ≤ a ∧ a < 5))
      omega
    | true, false =>
      rw [hdma, hdma']
      change 4 ≤ a ∧ a < 5 → ¬ ((0 ≤ a ∧ a < 1) ∨ (3 ≤ a ∧ a < 4))
      omega

/-- With an id that exists, one tick copies both bytes. -/
theorem transfers_independent_twoStarted :
    (((twoStarted 4).ticks () 1).tickTimers ()).2 = none ∧
      ((twoStarted 4).ticks () 1).dev.memory.storage[4]? =
        (((twoStarted 4).only true).ticks () 1).dev.memory.storage[4]? := by
  have hline : ∀ d ∈ [false, true], ((twoStarted 4).dma d).LineExists := by
    intro d _ _
    cases d <;> decide
  obtain ⟨hthrows, halone, -, -⟩ := transfers_independent () twoDmas [false, true] (oneByteEach 4)
    (twoStarted 4) rfl rfl (by decide) (disjointTransfers_twoStarted 4) hline 1
  exact ⟨hthrows, halone true (by decide) 4 ⟨by decide, by decide⟩⟩

/-- With an id that does not exist, the first controller throws when it completes, and the second
one misses the tick. -/
theorem not_independent_twoStarted :
    (twoStarted 40).DisjointTransfers [false, true] ∧ 4 ∈ ((twoStarted 40).dma true).dstRange ∧
      ((twoStarted 40).ticks () 1).dev.memory.storage[4]? = some 14 ∧
      (((twoStarted 40).only true).ticks () 1).dev.memory.storage[4]? = some 11 :=
  ⟨disjointTransfers_twoStarted 40, ⟨by decide, by decide⟩, by decide, by decide⟩

end DmaBus

end System

end EFS
