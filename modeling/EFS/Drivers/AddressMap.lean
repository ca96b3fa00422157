import EFS.Drivers.Construction
import EFS.LTS.Basic

/-!
# The addresses of the live peripherals

Peripherals are constructed on one bus and destroyed, in any order.  The addresses on the bus should
be those of the peripherals that are alive.

A constructor that finds one of its addresses taken throws, but what it has registered by then stays
on the bus, where no destructor will remove it.  `sound_iff_clean` gives the exact condition under
which a construction either succeeds or leaves the bus as it was, and `addresses_eq_live` is the map
in every run of such constructions.
-/

namespace EFS

namespace Drivers

open EFS.Mmio

/-- A constructor, with its arguments but for the bus and the base address. -/
inductive Construction
  | gpio
  | timer
  | uart (defaultBaudRate : UInt32)
  | spi (clockDivider : UInt32) (mode : UInt8)
  | i2c (defaultSlaveAddress : UInt8)
  | pwm (frequencyHz dutyCyclePercent systemClockHz : UInt32)
  | adc (resolutionBits : UInt8) (referenceVoltage : Float) (channelCount : UInt64)
  | interruptController

/-- The classes of peripherals. -/
inductive PeripheralKind
  | gpio
  | timer
  | uart
  | spi
  | i2c
  | pwm
  | adc
  | interruptController
  deriving DecidableEq

/-- References for the registers of a new peripheral. -/
structure References (R : Type) where
  gpio : GPIORegister → R
  timer : TimerRegister → R
  uart : UARTRegister → R
  spi : SPIRegister → R
  i2c : I2CRegister → R
  pwm : PWMRegister → R
  adc : ADCRegister → R
  interruptController : InterruptRegister → R

/-- The kind of peripheral that a constructor makes. -/
def Construction.kind : Construction → PeripheralKind
  | .gpio => .gpio
  | .timer => .timer
  | .uart _ => .uart
  | .spi _ _ => .spi
  | .i2c _ => .i2c
  | .pwm _ _ _ => .pwm
  | .adc _ _ _ => .adc
  | .interruptController => .interruptController

/-- The exception that a constructor throws. -/
def exception {α : Type} : Except String α → Option String
  | .ok _ => none
  | .error e => some e

variable {R : Type}

/-- The bus after a constructor call, and the exception that leaves it. -/
def Construction.construct (refs : References R) (bus : MMIOBus R) (base : Address) :
    Construction → MMIOBus R × Option String
  | .gpio => ( GPIO.construct bus base refs.gpio).map id exception
  | .timer => (Timer.construct bus base refs.timer).map id exception
  | .uart baud => (UART.construct bus base refs.uart baud).map id exception
  | .spi divider mode => (SPIController.construct bus base refs.spi divider mode).map id exception
  | .i2c address =>
    (I2CController.construct (D := Unit) bus base refs.i2c address).map id exception
  | .pwm f d c => (PWMController.construct bus base refs.pwm refs.timer f d c).map id exception
  | .adc res ref channels =>
    (ADCController.construct bus base refs.adc res ref channels).map id exception
  | .interruptController =>
    (constructInterruptController (H := Unit) bus base refs.interruptController).map id exception

namespace PeripheralKind

/-- The addresses that a constructor claims first: those of a PWM controller are the registers of
its internal timer. -/
def claimed (base : Address) : PeripheralKind → List Address
  | .gpio => blockAddresses base GPIO.layout
  | .timer => blockAddresses base Timer.layout
  | .uart => blockAddresses base UART.layout
  | .spi => blockAddresses base SPIController.layout
  | .i2c => blockAddresses base I2CController.layout
  | .pwm => blockAddresses (base + PWMController.timerOffset) Timer.layout
  | .adc => blockAddresses base ADCController.layout
  | .interruptController => blockAddresses base interruptLayout

/-- The addresses of a peripheral. -/
def addresses (base : Address) : PeripheralKind → List Address
  | .pwm => blockAddresses base PWMController.layout ++ claimed base .pwm
  | kind => claimed base kind

/-- The bus after the destructor call. -/
def destroy (bus : MMIOBus R) (base : Address) : PeripheralKind → MMIOBus R
  | .gpio => GPIO.destroy bus base
  | .timer => Timer.destroy bus base
  | .uart => UART.destroy bus base
  | .spi => SPIController.destroy bus base
  | .i2c => I2CController.destroy bus base
  | .pwm => PWMController.destroy bus base
  | .adc => ADCController.destroy bus base
  | .interruptController => destroyInterruptController bus base

end PeripheralKind

/-- A bus and the peripherals that are alive, with their base addresses. -/
structure AddressSpace (R : Type) where
  bus : MMIOBus R
  live : List (PeripheralKind × Address)

namespace AddressSpace

/-- A constructor call, or the destruction of the peripheral at index `i` of `live`. -/
inductive Label (R : Type)
  | construct (c : Construction) (refs : References R) (base : Address)
  | destroy (i : ℕ)

variable (s : AddressSpace R)

/-- A constructor is called; only one that returns leaves a live peripheral. -/
def construct (c : Construction) (refs : References R) (base : Address) : AddressSpace R :=
  match c.construct refs s.bus base with
  | (bus, none) => { bus, live := s.live ++ [(c.kind, base)] }
  | (bus, some _) => { s with bus }

/-- The `i`-th live peripheral is destroyed. -/
def destroy (i : ℕ) : AddressSpace R :=
  match s.live[i]? with
  | some (kind, base) => { bus := kind.destroy s.bus base, live := s.live.eraseIdx i }
  | none => s

/-- The address space after a construction or a destruction. -/
def perform : Label R → AddressSpace R
  | .construct c refs base => s.construct c refs base
  | .destroy i => s.destroy i

/-- The runs of an address space. -/
def machine (R : Type) : LTS (AddressSpace R) (Label R) where
  step s l t := t = s.perform l

end AddressSpace

/-! ### One construction -/

/-- If one of the addresses is taken, then the first one is. -/
def RefusedAtOnce (bus : MMIOBus R) (as : List Address) : Prop :=
  (∃ a ∈ as, a ∈ bus.addresses) → ∃ a ∈ as.head?, a ∈ bus.addresses

/-- The arguments are accepted. -/
def Construction.Valid : Construction → Prop
  | .uart baud => baud ≠ 0
  | .spi divider mode => divider ≠ 0 ∧ mode ≤ 3
  | .pwm frequency duty clock => clock ≠ 0 ∧ frequency ≠ 0 ∧ frequency ≤ clock ∧ duty ≤ 100
  | .adc res ref channels => channels ≠ 0 ∧ (res = 8 ∨ res = 10 ∨ res = 12) ∧ ¬ ref ≤ 0
  | .gpio | .timer | .i2c _ | .interruptController => True

/-- The constructor fails, if it does, before it has registered anything, or only while the internal
timer of a PWM controller is there to be destroyed. -/
def Construction.Clean (bus : MMIOBus R) (base : Address) : Construction → Prop
  | .pwm frequency duty clock =>
    RefusedAtOnce bus (PeripheralKind.pwm.claimed base) ∧
      ((∀ a ∈ PeripheralKind.pwm.claimed base, a ∉ bus.addresses) →
        (Construction.pwm frequency duty clock).Valid →
          RefusedAtOnce bus (blockAddresses base PWMController.layout))
  | c => c.Valid → RefusedAtOnce bus (c.kind.claimed base)

/-- The constructor has claimed the addresses `as`, or has thrown and left the bus as it was. -/
def Sound (bus : MMIOBus R) (as : List Address) (after : MMIOBus R × Option String) : Prop :=
  (after.2 = none ∧ (∀ a ∈ as, a ∉ bus.addresses) ∧
    after.1.addresses = bus.addresses ∪ {a | a ∈ as}) ∨
  (after.2.isSome ∧ after.1.addresses = bus.addresses)

variable {bus : MMIOBus R} {base : Address}

/-- The two outcomes of registering a block. -/
theorem construct_cases {ρ α : Type} (layout : List (ρ × Address)) (bus : MMIOBus R)
    (base : Address)
    (ref : ρ → R) (failure : String) (object : α) (hnodup : (layout.map Prod.snd).Nodup) :
    ((∀ a ∈ blockAddresses base layout, a ∉ bus.addresses) ∧
      ∃ bus', bus.construct (block base layout ref) failure object = (bus', .ok object) ∧
        bus'.addresses = bus.addresses ∪ {a | a ∈ blockAddresses base layout}) ∨
    ((∃ a ∈ blockAddresses base layout, a ∈ bus.addresses) ∧
      ∃ bus', bus.construct (block base layout ref) failure object = (bus', .error failure) ∧
        bus.addresses ⊆ bus'.addresses ∧
        (bus'.addresses = bus.addresses ↔
          ∃ a ∈ (blockAddresses base layout).head?, a ∈ bus.addresses)) := by
  have hfst := map_fst_block base layout ref
  have hnd : ((block base layout ref).map Prod.fst).Nodup := hfst ▸ nodup_blockAddresses base hnodup
  have hsub := MMIOBus.addresses_subset_registerAll bus (block base layout ref)
  unfold MMIOBus.construct
  by_cases htaken : ∃ a ∈ blockAddresses base layout, a ∈ bus.addresses
  · have hfalse : (bus.registerAll (block base layout ref)).1 = false :=
      MMIOBus.registerAll_taken (hfst.symm ▸ htaken)
    have hhead : (bus.registerAll (block base layout ref)).2.addresses = bus.addresses ↔
        ∃ a ∈ (blockAddresses base layout).head?, a ∈ bus.addresses := by
      rw [← hfst]
      cases hb : block base layout ref with
      | nil => simp [← hfst, hb] at htaken
      | cons x rest => simpa using MMIOBus.addresses_registerAll_eq_iff
    generalize bus.registerAll (block base layout ref) = registered at hfalse hhead hsub
    obtain ⟨ok, bus'⟩ := registered
    obtain rfl : ok = false := hfalse
    exact .inr ⟨htaken, bus', rfl, hsub, hhead⟩
  · -- every address of the block is free
    have hfree : ∀ a ∈ blockAddresses base layout, a ∉ bus.addresses :=
      fun a ha hat => htaken ⟨a, ha, hat⟩
    obtain ⟨hok, hadd⟩ := MMIOBus.registerAll_free hnd (hfst.symm ▸ hfree)
    generalize bus.registerAll (block base layout ref) = registered at hok hadd
    obtain ⟨ok, bus'⟩ := registered
    obtain rfl : ok = true := hok
    exact .inl ⟨hfree, bus', rfl, by simpa [hfst] using hadd⟩

theorem sound_some_iff {as : List Address} {bus' : MMIOBus R} {e : String} :
    Sound bus as (bus', some e) ↔ bus'.addresses = bus.addresses := by
  simp [Sound]

theorem sound_construct_iff {ρ α : Type} (layout : List (ρ × Address)) (ref : ρ → R)
    (failure : String) (object : α) (hnodup : (layout.map Prod.snd).Nodup) :
    Sound bus (blockAddresses base layout)
        ((bus.construct (block base layout ref) failure object).map id exception) ↔
      RefusedAtOnce bus (blockAddresses base layout) := by
  rcases construct_cases layout bus base ref failure object hnodup with
    ⟨hfree, bus', heq, hadd⟩ | ⟨htaken, bus', heq, -, hhead⟩
  · rw [heq]
    exact iff_of_true (.inl ⟨rfl, hfree, hadd⟩) fun ⟨a, ha, hat⟩ => absurd hat (hfree a ha)
  · rw [heq]
    exact sound_some_iff.trans (hhead.trans ⟨fun h _ => h, fun h => h htaken⟩)

theorem UART.new_eq_ok (base : Address) {baud : UInt32} :
    (∃ u, UART.new base baud = .ok u) ↔ baud ≠ 0 := by
  unfold UART.new
  split_ifs with h <;> simp [h]

theorem SPIController.new_eq_ok (base : Address) {divider : UInt32} {mode : UInt8} :
    (∃ c, SPIController.new base divider mode = .ok c) ↔ divider ≠ 0 ∧ mode ≤ 3 := by
  unfold SPIController.new
  split_ifs with h h'
  · simp [h]
  · simp [UInt8.not_le.2 h']
  · simp [h, UInt8.not_lt.1 h']

theorem ADCController.new_eq_ok (base : Address) {res : UInt8} {ref : Float} {channels : UInt64} :
    (∃ c, ADCController.new base res ref channels = .ok c) ↔
      channels ≠ 0 ∧ (res = 8 ∨ res = 10 ∨ res = 12) ∧ ¬ ref ≤ 0 := by
  unfold ADCController.new
  split_ifs with h h' h''
  · simp [h]
  · simp [h']
  · simp [h'']
  · have hres : res = 8 ∨ res = 10 ∨ res = 12 := by tauto
    simp [h, hres, h'']

theorem PWMController.new_eq_ok (frequency duty clock : UInt32) :
    (∃ p, PWMController.new true true frequency duty clock = .ok p) ↔
      clock ≠ 0 ∧ frequency ≠ 0 ∧ frequency ≤ clock ∧ duty ≤ 100 := by
  simp only [PWMController.new, not_true_eq_false, if_false]
  split_ifs with h h' h''
  · simp [h]
  · rcases h' with h' | h'
    · simp [h']
    · simp [UInt32.not_le.2 h']
  · simp [UInt32.not_le.2 h'']
  · obtain ⟨hf, hle⟩ := not_or.1 h'
    simp [h, hf, UInt32.not_lt.1 hle, UInt32.not_lt.1 h'']

theorem sound_iff_of_check {ρ α : Type} (layout : List (ρ × Address)) (ref : ρ → R)
    {failure : String} {object : Except String α} {valid : Prop}
    {after : MMIOBus R × Except String α} (hnodup : (layout.map Prod.snd).Nodup)
    (hvalid : (∃ o, object = .ok o) ↔ valid)
    (hok : ∀ o, object = .ok o → after = bus.construct (block base layout ref) failure o)
    (herror : ∀ e, object = .error e → after = (bus, .error e)) :
    Sound bus (blockAddresses base layout) (after.map id exception) ↔
      (valid → RefusedAtOnce bus (blockAddresses base layout)) := by
  cases hobject : object with
  | error e =>
    rw [herror e hobject]
    have hno : ¬ valid := fun hv => by simpa [hobject] using hvalid.2 hv
    exact iff_of_true (sound_some_iff.2 rfl) fun hv => absurd hv hno
  | ok o =>
    rw [hok o hobject]
    have hyes : valid := hvalid.1 ⟨o, hobject⟩
    exact (sound_construct_iff layout ref failure o hnodup).trans ⟨fun h _ => h, fun h => h hyes⟩

/-- No register of a PWM controller is at the address of a register of its internal timer. -/
theorem pwm_blocks_disjoint (base : Address) :
    ∀ a ∈ blockAddresses base PWMController.layout, a ∉ PeripheralKind.pwm.claimed base := by
  have hoffsets : ∀ x ∈ PWMController.layout.map Prod.snd, ∀ y ∈ Timer.layout.map Prod.snd,
      x ≠ PWMController.timerOffset + y := by
    simp only [PWMController.layout, Timer.layout, List.map_cons, List.map_nil, List.mem_cons,
      List.not_mem_nil, or_false]
    rintro x (rfl | rfl | rfl | rfl) y (rfl | rfl | rfl | rfl) <;> decide
  intro a ha hb
  simp only [PeripheralKind.claimed, blockAddresses, List.mem_map] at ha hb
  obtain ⟨x, hx, rfl⟩ := ha
  obtain ⟨y, hy, he⟩ := hb
  rw [UInt64.add_assoc] at he
  exact hoffsets x.2 (List.mem_map_of_mem hx) y.2 (List.mem_map_of_mem hy)
    ((UInt64.add_right_inj base).1 he).symm

/-- The constructor of a PWM controller. -/
theorem pwm_sound_iff (refs : References R) (frequency duty clock : UInt32) :
    Sound bus (PeripheralKind.pwm.addresses base)
        ((PWMController.construct bus base refs.pwm refs.timer frequency duty clock).map id
          exception) ↔
      (Construction.pwm frequency duty clock).Clean bus base := by
  have hvalid := PWMController.new_eq_ok frequency duty clock
  unfold PWMController.construct Timer.construct
  rcases construct_cases Timer.layout bus (base + PWMController.timerOffset) refs.timer
    "Timer MMIO registration failure" Timer.new (by decide) with
    ⟨hfree, bus₁, heq, hadd⟩ | ⟨htaken, bus₁, heq, -, hhead⟩
  · rw [heq]
    -- destroying the internal timer undoes its construction
    have hundo : ∀ b : MMIOBus R, b.addresses = bus₁.addresses →
        (Timer.destroy b (base + PWMController.timerOffset)).addresses = bus.addresses := by
      intro b hb
      rw [Timer.destroy, MMIOBus.addresses_unregisterAll, hb, hadd]
      exact Set.union_sdiff_cancel_right fun a ⟨hat, ha⟩ => hfree a ha hat
    have hrefused : RefusedAtOnce bus (PeripheralKind.pwm.claimed base) :=
      fun ⟨a, ha, hat⟩ => absurd hat (hfree a ha)
    cases hp : PWMController.new true true frequency duty clock with
    | error e =>
      have hno : ¬ (Construction.pwm frequency duty clock).Valid := fun hv => by
        simpa [hp] using hvalid.2 hv
      exact iff_of_true (sound_some_iff.2 (hundo bus₁ rfl)) ⟨hrefused, fun _ hv => absurd hv hno⟩
    | ok p =>
      have hyes : (Construction.pwm frequency duty clock).Valid := hvalid.1 ⟨p, hp⟩
      have hown : ∀ a ∈ blockAddresses base PWMController.layout,
          (a ∈ bus₁.addresses ↔ a ∈ bus.addresses) := by
        intro a ha
        rw [hadd]
        exact or_iff_left (pwm_blocks_disjoint base a ha)
      simp only
      rcases construct_cases PWMController.layout bus₁ base refs.pwm
        "PWMController MMIO registration failure" p (by decide) with
        ⟨hfree', bus₂, heq', hadd'⟩ | ⟨⟨b, hb, hbt⟩, bus₂, heq', hsub, hhead⟩
      · rw [heq']
        refine iff_of_true (.inl ⟨rfl, ?_, ?_⟩)
          ⟨hrefused, fun _ _ ⟨a, ha, hat⟩ => absurd ((hown a ha).2 hat) (hfree' a ha)⟩
        · intro a ha
          rcases List.mem_append.1 ha with ha | ha
          · exact fun hat => hfree' a ha ((hown a ha).2 hat)
          · exact hfree a ha
        · show bus₂.addresses = _
          rw [hadd', hadd]
          ext a
          simp only [PeripheralKind.addresses, PeripheralKind.claimed, Set.mem_union,
            Set.mem_ofPred_eq, List.mem_append]
          tauto
      · rw [heq']
        have hdestroy : (Timer.destroy bus₂ (base + PWMController.timerOffset)).addresses =
            bus.addresses ↔ bus₂.addresses = bus₁.addresses := by
          refine ⟨?_, hundo bus₂⟩
          intro h
          -- the registers of the timer are still there
          have hT : {a | a ∈ PeripheralKind.pwm.claimed base} ⊆ bus₂.addresses :=
            fun a ha => hsub (hadd ▸ .inr ha)
          rw [Timer.destroy, MMIOBus.addresses_unregisterAll] at h
          rw [hadd, ← h]
          exact (Set.sdiff_union_of_subset hT).symm
        refine sound_some_iff.trans (hdestroy.trans (hhead.trans ?_))
        constructor
        · rintro ⟨a, ha, hat⟩
          exact ⟨hrefused, fun _ _ _ => ⟨a, ha, (hown a (List.mem_of_mem_head? ha)).1 hat⟩⟩
        · rintro ⟨-, h⟩
          obtain ⟨a, ha, hat⟩ := h hfree hyes ⟨b, hb, (hown b hb).1 hbt⟩
          exact ⟨a, ha, (hown a (List.mem_of_mem_head? ha)).2 hat⟩
  · -- the internal timer is refused
    rw [heq]
    have hrefused : RefusedAtOnce bus (PeripheralKind.pwm.claimed base) ↔
        bus₁.addresses = bus.addresses := ⟨fun h => hhead.2 (h htaken), fun h _ => hhead.1 h⟩
    refine sound_some_iff.trans (hrefused.symm.trans ⟨fun h => ⟨h, ?_⟩, And.left⟩)
    intro hfree
    obtain ⟨a, ha, hat⟩ := htaken
    exact absurd hat (hfree a ha)

/-- **One construction** succeeds, or leaves the bus as it was, iff it is clean. -/
theorem Construction.sound_iff_clean (c : Construction) (refs : References R) (bus : MMIOBus R)
    (base : Address) :
    Sound bus (c.kind.addresses base) (c.construct refs bus base) ↔ c.Clean bus base := by
  have htrivial : ∀ {p : Prop}, p ↔ (True → p) := fun {p} => ⟨fun h _ => h, fun h => h trivial⟩
  cases c with
  | gpio =>
    exact (sound_construct_iff GPIO.layout refs.gpio _ _ (by decide)).trans htrivial
  | timer =>
    exact (sound_construct_iff Timer.layout refs.timer _ _ (by decide)).trans htrivial
  | uart baud =>
    exact sound_iff_of_check UART.layout refs.uart (by decide) (UART.new_eq_ok base)
      (fun o h => by rw [h]) fun e h => by rw [h]
  | spi divider mode =>
    exact sound_iff_of_check SPIController.layout refs.spi (by decide)
      (SPIController.new_eq_ok base) (fun o h => by rw [h]) fun e h => by rw [h]
  | i2c address =>
    exact (sound_construct_iff I2CController.layout refs.i2c _ _ (by decide)).trans htrivial
  | pwm frequency duty clock => exact pwm_sound_iff refs frequency duty clock
  | adc res ref channels =>
    exact sound_iff_of_check ADCController.layout refs.adc (by decide)
      (ADCController.new_eq_ok base) (fun o h => by rw [h]) fun e h => by rw [h]
  | interruptController =>
    exact (sound_construct_iff interruptLayout refs.interruptController _ _ (by decide)).trans
      htrivial

/-! ### Runs -/

theorem PeripheralKind.addresses_destroy (kind : PeripheralKind) (bus : MMIOBus R)
    (base : Address) :
    (kind.destroy bus base).addresses = bus.addresses \ {a | a ∈ kind.addresses base} := by
  cases kind with
  | pwm =>
    rw [destroy, PWMController.destroy, Timer.destroy, MMIOBus.addresses_unregisterAll,
      MMIOBus.addresses_unregisterAll]
    ext a
    simp only [PeripheralKind.addresses, PeripheralKind.claimed, Set.mem_sdiff, Set.mem_ofPred_eq,
      List.mem_append]
    tauto
  | _ => exact MMIOBus.addresses_unregisterAll bus _

namespace AddressSpace

/-- The addresses on the bus are those of the live peripherals, and no two of these overlap. -/
structure Exact (s : AddressSpace R) : Prop where
  addresses_eq : s.bus.addresses = {a | ∃ p ∈ s.live, a ∈ p.1.addresses p.2}
  disjoint : s.live.Pairwise fun p q => ∀ a ∈ p.1.addresses p.2, a ∉ q.1.addresses q.2

/-- The constructor calls are clean. -/
def Careful (s : AddressSpace R) : Label R → Prop
  | .construct c _ base => c.Clean s.bus base
  | .destroy _ => True

variable {s : AddressSpace R}

theorem Exact.construct (h : s.Exact) {c : Construction} {base : Address}
    (hclean : c.Clean s.bus base) (refs : References R) : (s.construct c refs base).Exact := by
  have hsound := (c.sound_iff_clean refs s.bus base).2 hclean
  unfold AddressSpace.construct
  generalize c.construct refs s.bus base = after at hsound
  obtain ⟨bus, _ | e⟩ := after
  · rcases hsound with ⟨-, hfree, hadd⟩ | ⟨hsome, -⟩
    · refine ⟨?_, List.pairwise_append.2 ⟨h.disjoint, List.pairwise_singleton _ _, ?_⟩⟩
      · show bus.addresses = _
        rw [hadd, h.addresses_eq]
        ext a
        simp [or_and_right, exists_or]
      · intro p hp q hq a ha
        obtain rfl := List.mem_singleton.1 hq
        exact fun haq => hfree a haq (h.addresses_eq ▸ ⟨p, hp, ha⟩)
    · cases hsome
  · rcases hsound with ⟨hnone, -⟩ | ⟨-, hsame⟩
    · cases hnone
    · exact ⟨hsame.trans h.addresses_eq, h.disjoint⟩

theorem Exact.index_eq (h : s.Exact) {i j : ℕ} (hi : i < s.live.length) (hj : j < s.live.length)
    {a : Address} (hia : a ∈ s.live[i].1.addresses s.live[i].2)
    (hja : a ∈ s.live[j].1.addresses s.live[j].2) : i = j := by
  rcases lt_trichotomy i j with hlt | heq | hgt
  · exact absurd hja (List.pairwise_iff_getElem.1 h.disjoint i j hi hj hlt a hia)
  · exact heq
  · exact absurd hia (List.pairwise_iff_getElem.1 h.disjoint j i hj hi hgt a hja)

theorem Exact.destroy (h : s.Exact) (i : ℕ) : (s.destroy i).Exact := by
  unfold AddressSpace.destroy
  cases hp : s.live[i]? with
  | none => exact h
  | some p =>
    obtain ⟨hi, rfl⟩ := List.getElem?_eq_some_iff.1 hp
    refine ⟨?_, h.disjoint.sublist (List.eraseIdx_sublist _ _)⟩
    show (s.live[i].1.destroy s.bus s.live[i].2).addresses = _
    rw [PeripheralKind.addresses_destroy, h.addresses_eq]
    ext a
    simp only [Set.mem_sdiff, Set.mem_ofPred_eq, List.mem_eraseIdx_iff_getElem]
    constructor
    · rintro ⟨⟨q, hq, haq⟩, hna⟩
      obtain ⟨j, hj, rfl⟩ := List.getElem_of_mem hq
      exact ⟨_, ⟨j, hj, fun hji => hna (by subst hji; exact haq), rfl⟩, haq⟩
    · rintro ⟨q, ⟨j, hj, hji, rfl⟩, haq⟩
      exact ⟨⟨_, List.getElem_mem hj, haq⟩, fun ha => hji (h.index_eq hj hi haq ha)⟩

/-- **The MMIO map.**  After every run of clean constructions and of destructions on a new bus, the
addresses on the bus are those of the peripherals that are alive. -/
theorem addresses_eq_live (ls : List (Label R)) (s : AddressSpace R)
    (h : ((machine R).restrict Careful).Run ⟨.empty, []⟩ ls s) :
    s.bus.addresses = {a | ∃ p ∈ s.live, a ∈ p.1.addresses p.2} := by
  have hempty : Exact (⟨.empty, []⟩ : AddressSpace R) :=
    ⟨Set.ext fun a => by simp [MMIOBus.contains, MMIOBus.empty], .nil⟩
  have hexact : s.Exact := h.invariant hempty fun s l t hs hstep => by
    obtain ⟨hclean, rfl⟩ := hstep
    cases l with
    | construct c refs base => exact hs.construct hclean refs
    | destroy i => exact hs.destroy i
  exact hexact.addresses_eq

/-- References that are not told apart. -/
def unitReferences : References Unit :=
  ⟨fun _ => (), fun _ => (), fun _ => (), fun _ => (), fun _ => (), fun _ => (), fun _ => (),
    fun _ => ()⟩

/-- A timer, and a GPIO port that is refused at the same base address. -/
theorem addresses_eq_live_timer : ∃ s : AddressSpace Unit, s.live = [(.timer, 0x1000)] ∧
    s.bus.addresses = {a | ∃ p ∈ s.live, a ∈ p.1.addresses p.2} :=
  ⟨_, rfl, addresses_eq_live
    [.construct .timer unitReferences 0x1000, .construct .gpio unitReferences 0x1000] _
    (.cons ⟨fun _ ⟨_, _, ha⟩ => absurd ha Bool.false_ne_true, rfl⟩
      (.cons ⟨fun _ _ => ⟨0x1000, rfl, rfl⟩, rfl⟩ (.nil _)))⟩

/-- Not so after every run: a GPIO port whose third address is taken throws, and its first two
addresses stay on the bus. -/
theorem not_addresses_eq_live :
    ¬ ∀ (ls : List (Label Unit)) (s : AddressSpace Unit), (machine Unit).Run ⟨.empty, []⟩ ls s →
      s.bus.addresses = {a | ∃ p ∈ s.live, a ∈ p.1.addresses p.2} := by
  intro h
  have hrun := h [.construct .timer unitReferences 0x1008, .construct .gpio unitReferences 0x1000] _
    (.cons rfl (.cons rfl (.nil _)))
  have hleft : (0x1000 : Address) ∈ {a | ∃ p ∈ [(PeripheralKind.timer, (0x1008 : Address))],
      a ∈ p.1.addresses p.2} := hrun ▸ rfl
  obtain ⟨p, hp, ha⟩ := hleft
  obtain rfl := List.mem_singleton.1 hp
  exact absurd ha (by decide)

end AddressSpace

end Drivers

end EFS
