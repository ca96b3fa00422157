import EFS.Mmio.Bus

/-!
# Registering blocks of registers

A peripheral claims a block of addresses when it is constructed: it registers its registers one by
one and gives up at the first address that is taken (`registerAll`).  What it has registered by
then stays on the bus.

* `registerAll_free` : a block of free addresses is registered as a whole.
* `registerAll_taken` : a block with an address that is taken is refused.
* `addresses_registerAll_eq_iff` : the refusal leaves the bus as it was iff the first address of the
  block is taken.
-/

namespace EFS

namespace Mmio

/-- The registers `layout` at their offsets from `base`. -/
def block {ρ R : Type} (base : Address) (layout : List (ρ × Address)) (ref : ρ → R) :
    List (Address × R) :=
  layout.map fun x => (base + x.2, ref x.1)

/-- The addresses of these registers. -/
def blockAddresses {ρ : Type} (base : Address) (layout : List (ρ × Address)) : List Address :=
  layout.map fun x => base + x.2

theorem map_fst_block {ρ R : Type} (base : Address) (layout : List (ρ × Address)) (ref : ρ → R) :
    (block base layout ref).map Prod.fst = blockAddresses base layout := by
  simp [block, blockAddresses]

/-- Different offsets give different addresses. -/
theorem nodup_blockAddresses {ρ : Type} (base : Address) {layout : List (ρ × Address)}
    (h : (layout.map Prod.snd).Nodup) : (blockAddresses base layout).Nodup := by
  have heq : blockAddresses base layout = (layout.map Prod.snd).map (base + ·) := by
    simp [blockAddresses]
  rw [heq]
  exact h.map fun a b hab => (UInt64.add_right_inj base).1 hab

namespace MMIOBus

variable {R : Type}

variable (bus : MMIOBus R)

/-- `registerRegister(r₁) && registerRegister(r₂) && ..` : the rest is not tried after a failure. -/
def registerAll (bus : MMIOBus R) : List (Address × R) → Bool × MMIOBus R
  | [] => (true, bus)
  | (address, reg) :: rest =>
    match bus.registerRegister address reg with
    | (true, bus') => registerAll bus' rest
    | (false, bus') => (false, bus')

/-- The calls of `unregisterRegister` in a destructor. -/
def unregisterAll (addresses : List Address) : MMIOBus R :=
  addresses.foldl (fun bus address => (bus.unregisterRegister address).2) bus

/-- The end of a constructor: the registers are registered, or it throws `failure`. -/
def construct {α : Type} (block : List (Address × R)) (failure : String) (object : α) :
    MMIOBus R × Except String α :=
  match bus.registerAll block with
  | (true, bus') => (bus', .ok object)
  | (false, bus') => (bus', .error failure)

/-! ### Which addresses are taken -/

variable {bus} {a b : Address}

/-- The addresses that are taken. -/
def addresses (bus : MMIOBus R) : Set Address := {a | bus.contains a}

@[simp] theorem mem_addresses : a ∈ bus.addresses ↔ bus.contains a = true := Iff.rfl

theorem registerRegister_free (reg : R) (h : a ∉ bus.addresses) :
    (bus.registerRegister a reg).1 = true ∧
      (bus.registerRegister a reg).2.addresses = insert a bus.addresses := by
  have hc : ¬ bus.contains a = true := h
  rw [registerRegister, if_neg hc]
  refine ⟨rfl, Set.ext ?_⟩
  intro b
  by_cases hb : b = a <;> simp [contains, hb]

theorem registerRegister_taken {reg : R} (h : a ∈ bus.addresses) :
    bus.registerRegister a reg = (false, bus) :=
  if_pos h

theorem registerAll_cons_free (reg : R) (rest : List (Address × R)) (h : a ∉ bus.addresses) :
    ∃ bus' : MMIOBus R, bus'.addresses = insert a bus.addresses ∧
      bus.registerAll ((a, reg) :: rest) = bus'.registerAll rest := by
  obtain ⟨hok, hins⟩ := registerRegister_free reg h
  refine ⟨(bus.registerRegister a reg).2, hins, ?_⟩
  rw [registerAll]
  generalize bus.registerRegister a reg = registered at hok ⊢
  obtain ⟨ok, bus'⟩ := registered
  obtain rfl : ok = true := hok
  rfl

theorem registerAll_cons_taken {reg : R} {rest : List (Address × R)} (h : a ∈ bus.addresses) :
    bus.registerAll ((a, reg) :: rest) = (false, bus) := by
  rw [registerAll, registerRegister_taken h]

theorem addresses_unregisterRegister (bus : MMIOBus R) (a : Address) :
    (bus.unregisterRegister a).2.addresses = bus.addresses \ {a} := by
  unfold unregisterRegister
  split_ifs with hc
  · ext b
    by_cases hb : b = a <;> simp [contains, hb]
  · exact (Set.sdiff_singleton_eq_self (s := bus.addresses) hc).symm

theorem addresses_unregisterAll (bus : MMIOBus R) (as : List Address) :
    (bus.unregisterAll as).addresses = bus.addresses \ {a | a ∈ as} := by
  unfold unregisterAll
  induction as generalizing bus with
  | nil => simp
  | cons a as ih =>
    rw [List.foldl_cons, ih, addresses_unregisterRegister]
    ext b
    simp only [Set.mem_sdiff, Set.mem_singleton_iff, Set.mem_ofPred_eq, List.mem_cons]
    tauto

/-- A block of free addresses is registered as a whole. -/
theorem registerAll_free {block : List (Address × R)} (hnodup : (block.map Prod.fst).Nodup)
    (hfree : ∀ a ∈ block.map Prod.fst, a ∉ bus.addresses) :
    (bus.registerAll block).1 = true ∧
      (bus.registerAll block).2.addresses = bus.addresses ∪ {a | a ∈ block.map Prod.fst} := by
  induction block generalizing bus with
  | nil => simp [registerAll]
  | cons x rest ih =>
    obtain ⟨a, reg⟩ := x
    obtain ⟨hnot, hnodup⟩ := List.nodup_cons.1 hnodup
    obtain ⟨bus', hins, hcons⟩ := registerAll_cons_free reg rest (hfree a List.mem_cons_self)
    have hrest : ∀ b ∈ rest.map Prod.fst, b ∉ bus'.addresses := by
      intro b hb
      rw [hins, Set.mem_insert_iff, not_or]
      exact ⟨fun he => hnot (he ▸ hb), hfree b (List.mem_cons_of_mem _ hb)⟩
    obtain ⟨hok, hadd⟩ := ih hnodup hrest
    rw [hcons]
    refine ⟨hok, ?_⟩
    rw [hadd, hins]
    ext b
    simp only [Set.mem_union, Set.mem_insert_iff, Set.mem_ofPred_eq, List.map_cons, List.mem_cons]
    tauto

/-- Registering only adds addresses. -/
theorem addresses_subset_registerAll (bus : MMIOBus R) (block : List (Address × R)) :
    bus.addresses ⊆ (bus.registerAll block).2.addresses := by
  induction block generalizing bus with
  | nil => exact subset_rfl
  | cons x rest ih =>
    obtain ⟨a, reg⟩ := x
    by_cases ha : a ∈ bus.addresses
    · rw [registerAll_cons_taken ha]
    · obtain ⟨bus', hins, hcons⟩ := registerAll_cons_free reg rest ha
      refine (Set.subset_insert a bus.addresses).trans ?_
      rw [hcons, ← hins]
      exact ih bus'

/-- A block with an address that is taken is refused. -/
theorem registerAll_taken {block : List (Address × R)}
    (htaken : ∃ a ∈ block.map Prod.fst, a ∈ bus.addresses) : (bus.registerAll block).1 = false := by
  induction block generalizing bus with
  | nil => simp at htaken
  | cons x rest ih =>
    obtain ⟨a, reg⟩ := x
    by_cases ha : a ∈ bus.addresses
    · rw [registerAll_cons_taken ha]
    · obtain ⟨bus', hins, hcons⟩ := registerAll_cons_free reg rest ha
      rw [hcons]
      obtain ⟨b, hb, hbt⟩ := htaken
      rcases List.mem_cons.1 hb with rfl | hb
      · exact absurd hbt ha
      · exact ih ⟨b, hb, hins ▸ Set.mem_insert_of_mem a hbt⟩

/-- The addresses before the first one that is taken stay on the bus, so the refusal leaves it as
it was iff that is the first address of the block. -/
theorem addresses_registerAll_eq_iff {a : Address} {reg : R} {rest : List (Address × R)} :
    (bus.registerAll ((a, reg) :: rest)).2.addresses = bus.addresses ↔ a ∈ bus.addresses := by
  constructor
  · intro h
    by_contra ha
    obtain ⟨bus', hins, hcons⟩ := registerAll_cons_free reg rest ha
    rw [hcons] at h
    have hmem : a ∈ (registerAll bus' rest).2.addresses :=
      addresses_subset_registerAll bus' rest (hins ▸ Set.mem_insert a bus.addresses)
    exact ha (h ▸ hmem)
  · intro ha
    rw [registerAll_cons_taken ha]

/-- The references on the bus are old ones or those of the block. -/
theorem registers_registerAll {block : List (Address × R)} {ref : R}
    (h : (bus.registerAll block).2.registers a = some ref) :
    bus.registers a = some ref ∨ ref ∈ block.map Prod.snd := by
  induction block generalizing bus with
  | nil => exact .inl h
  | cons x rest ih =>
    obtain ⟨b, reg⟩ := x
    rw [registerAll] at h
    by_cases hb : b ∈ bus.addresses
    · rw [registerRegister_taken hb] at h
      exact .inl h
    · have hc : ¬ bus.contains b = true := hb
      rw [registerRegister, if_neg hc] at h
      rcases ih h with h | h
      · by_cases hab : a = b
        · subst hab
          simp only [Function.update_self, Option.some.injEq] at h
          exact .inr (by simp [h])
        · exact .inl (by simpa [hab] using h)
      · exact .inr (List.mem_cons_of_mem _ h)

/-- The references on `bus'` are those on `bus` and some of `refs`. -/
def Adds (bus bus' : MMIOBus R) (refs : Set R) : Prop :=
  ∀ a ref, bus'.registers a = some ref → bus.registers a = some ref ∨ ref ∈ refs

theorem construct_eq_ok {ρ α : Type} {base : Address} {layout : List (ρ × Address)} {f : ρ → R}
    {failure : String} {object object' : α} {bus' : MMIOBus R}
    (h : bus.construct (block base layout f) failure object = (bus', .ok object')) :
    object' = object ∧ bus.Adds bus' (Set.range f) := by
  have hadds : bus.Adds (bus.registerAll (block base layout f)).2 (Set.range f) := by
    intro a ref href
    refine (registers_registerAll href).imp_right ?_
    intro hmem
    simp only [block, List.map_map, List.mem_map] at hmem
    obtain ⟨x, -, rfl⟩ := hmem
    exact ⟨x.1, rfl⟩
  rw [construct] at h
  generalize bus.registerAll (block base layout f) = registered at h hadds
  obtain ⟨_ | _, bus''⟩ := registered
  · cases (Prod.mk.inj h).2
  · obtain ⟨rfl, hobject⟩ := Prod.mk.inj h
    exact ⟨(Except.ok.inj hobject).symm, hadds⟩

end MMIOBus

end Mmio

end EFS
