import EFS.Firmware.FirmwareManager
import EFS.LTS.Basic

/-!
# The selection of a firmware manager

The operations of a `FirmwareManager` that change its registry or its selection, and what they call.

* `selection_accounted` : a name is selected iff anything is registered, and the only lifecycle call
  is the `shutdown` of an application whose selection ends.
-/

namespace EFS

namespace Firmware

namespace FirmwareManager

variable {F : Type}

/-- The operations of a firmware manager that change it. -/
inductive Op (F : Type)
  | registerFirmware (name : String) (firmware : Option F)
  | unregisterFirmware (name : String)
  | setActiveFirmware (name : String)

/-- The manager after an operation, the calls that it makes, and what it returns. -/
def perform (m : FirmwareManager F) : Op F → FirmwareManager F × List (F × Call) × Bool
  | .registerFirmware name firmware =>
    ((m.registerFirmware name firmware).1, [], (m.registerFirmware name firmware).2)
  | .unregisterFirmware name => m.unregisterFirmware name
  | .setActiveFirmware name => m.setActiveFirmware name

/-- The runs of a manager. -/
def machine (F : Type) : LTS (FirmwareManager F) (Op F) where
  step m o m' := m' = (m.perform o).1

/-- `count()`. -/
def count (m : FirmwareManager F) : ℕ := m.firmwareRegistry.entries.length

/-- The active name is empty iff nothing is registered, and is the name of an application
otherwise. -/
structure NamesActive (m : FirmwareManager F) : Prop where
  empty_iff : m.activeName = "" ↔ m.count = 0
  registered : m.activeName ≠ "" → ∃ f, m.firmwareRegistry.find? m.activeName = some f

/-- An operation that fails does nothing, and one that ends a selection shuts down the application
that was active.  There are no other calls. -/
structure Accounts (m : FirmwareManager F) (o : Op F) : Prop where
  refused : (m.perform o).2.2 = false → (m.perform o).1 = m ∧ (m.perform o).2.1 = []
  ended : m.activeName ≠ "" → (m.perform o).1.activeName ≠ m.activeName →
    ∃ f, m.activeFirmware = some f ∧ (m.perform o).2.1 = [(f, .shutdown)]
  kept : m.activeName = "" ∨ (m.perform o).1.activeName = m.activeName → (m.perform o).2.1 = []

variable {m : FirmwareManager F}

theorem count_eq_zero_iff : m.count = 0 ↔ ∀ k, m.firmwareRegistry.find? k = none := by
  constructor
  · intro h k
    have hnil : m.firmwareRegistry.entries = [] := List.length_eq_zero_iff.1 h
    simp [OrderedMap.find?, hnil]
  · intro h
    refine List.length_eq_zero_iff.2 (List.eq_nil_iff_forall_not_mem.2 ?_)
    rintro ⟨k, f⟩ hmem
    rw [OrderedMap.mem_entries_iff, h k] at hmem
    cases hmem

theorem Selected.namesActive (h : m.Selected) : m.NamesActive where
  empty_iff := by
    rw [count_eq_zero_iff]
    refine ⟨h.empty, ?_⟩
    intro hnone
    by_contra hne
    obtain ⟨f, hf⟩ := h.exists_active hne
    rw [activeFirmware, hnone] at hf
    cases hf
  registered := h.exists_active

/-- An operation that calls nothing and keeps the selection, if there is one. -/
theorem Accounts.of_nil {o : Op F} (hcalls : (m.perform o).2.1 = [])
    (hkept : m.activeName ≠ "" → (m.perform o).1.activeName = m.activeName)
    (hrefused : (m.perform o).2.2 = false → (m.perform o).1 = m) : m.Accounts o where
  refused h := ⟨hrefused h, hcalls⟩
  ended hne hchanged := absurd (hkept hne) hchanged
  kept _ := hcalls

theorem Accounts.of_shutdown {o : Op F} {f : F} (hactive : m.activeFirmware = some f)
    (hcalls : (m.perform o).2.1 = [(f, .shutdown)]) (hsuccess : (m.perform o).2.2 = true)
    (hne : m.activeName ≠ "") (hchanged : (m.perform o).1.activeName ≠ m.activeName) :
    m.Accounts o where
  refused h := absurd (hsuccess.symm.trans h) Bool.noConfusion
  ended _ _ := ⟨f, hactive, hcalls⟩
  kept h := by
    rcases h with h | h
    · exact absurd h hne
    · exact absurd h hchanged

theorem Selected.accounts_registerFirmware (h : m.Selected) (name : String) (firmware : Option F) :
    m.Accounts (.registerFirmware name firmware) := by
  refine .of_nil rfl (fun hne => (h.registerFirmware_active hne name firmware).1) ?_
  intro hfalse
  change (m.registerFirmware name firmware).2 = false at hfalse
  refine registerFirmware_of_refused ?_
  cases firmware with
  | none => exact .inr (.inl rfl)
  | some f =>
    by_cases hname : name = ""
    · exact .inl hname
    · by_cases hreg : (m.firmwareRegistry.find? name).isSome
      · exact .inr (.inr hreg)
      · simp [FirmwareManager.registerFirmware, hname, hreg] at hfalse

theorem activeName_reselect_erase_ne {name : String} (h : m.Selected) (hname : name ≠ "") :
    (reselect ⟨m.firmwareRegistry.erase name, ""⟩).activeName ≠ name := by
  have hu : (m.firmwareRegistry.erase name).find? "" = none := by
    rw [OrderedMap.find?_erase, if_neg (Ne.symm hname), h.unnamed]
  intro he
  have hne : (reselect ⟨m.firmwareRegistry.erase name, ""⟩).activeName ≠ "" := by rwa [he]
  obtain ⟨f, hf⟩ := (selected_reselect hu).exists_active hne
  rw [activeFirmware, reselect_firmwareRegistry, he, OrderedMap.find?_erase, if_pos rfl] at hf
  cases hf

theorem Selected.accounts_unregisterFirmware (h : m.Selected) (name : String) :
    m.Accounts (.unregisterFirmware name) := by
  cases hreg : m.firmwareRegistry.find? name with
  | none =>
    have hperform : m.perform (.unregisterFirmware name) = (m, [], false) :=
      unregisterFirmware_of_unknown hreg
    exact .of_nil (by rw [hperform]) (fun _ => by rw [hperform]) fun _ => by rw [hperform]
  | some f =>
    by_cases ha : m.activeName = name
    · -- the application is told, and another name is selected
      have hactive : m.activeFirmware = some f := by rw [activeFirmware, ha, hreg]
      have hne : m.activeName ≠ "" := h.activeName_ne hactive
      have hperform : m.perform (.unregisterFirmware name) =
          (reselect ⟨m.firmwareRegistry.erase name, ""⟩, [(f, .shutdown)], true) :=
        unregisterFirmware_of_active hreg ha
      refine .of_shutdown hactive (by rw [hperform]) (by rw [hperform]) hne ?_
      rw [hperform, ha]
      exact activeName_reselect_erase_ne h (ha ▸ hne)
    · have hperform : m.perform (.unregisterFirmware name) =
          ({ m with firmwareRegistry := m.firmwareRegistry.erase name }, [], true) :=
        h.unregisterFirmware_inactive hreg ha
      refine .of_nil (by rw [hperform]) (fun _ => by rw [hperform]) ?_
      rw [hperform]
      exact fun hfalse => absurd hfalse.symm Bool.false_ne_true

theorem Selected.accounts_setActiveFirmware (h : m.Selected) (name : String) :
    m.Accounts (.setActiveFirmware name) := by
  cases hreg : m.firmwareRegistry.find? name with
  | none =>
    have hperform : m.perform (.setActiveFirmware name) = (m, [], false) :=
      setActiveFirmware_of_unknown hreg
    exact .of_nil (by rw [hperform]) (fun _ => by rw [hperform]) fun _ => by rw [hperform]
  | some f =>
    by_cases ha : m.activeName = name
    · have hperform : m.perform (.setActiveFirmware name) = (m, [], true) :=
        setActiveFirmware_of_active hreg ha
      exact .of_nil (by rw [hperform]) (fun _ => by rw [hperform]) fun _ => by rw [hperform]
    · -- something is registered, so that an application was active
      have hne : m.activeName ≠ "" := fun he => by simp [h.empty he name] at hreg
      obtain ⟨g, hactive⟩ := h.exists_active hne
      have hperform : m.perform (.setActiveFirmware name) =
          ({ m with activeName := name }, [(g, .shutdown)], true) := by
        rw [← callActive_of_some hactive]
        exact setActiveFirmware_of_inactive hreg ha
      refine .of_shutdown hactive (by rw [hperform]) (by rw [hperform]) hne ?_
      rw [hperform]
      exact Ne.symm ha

theorem Selected.accounts (h : m.Selected) (o : Op F) : m.Accounts o := by
  cases o with
  | registerFirmware name firmware => exact h.accounts_registerFirmware name firmware
  | unregisterFirmware name => exact h.accounts_unregisterFirmware name
  | setActiveFirmware name => exact h.accounts_setActiveFirmware name

theorem Selected.perform (h : m.Selected) (o : Op F) : (m.perform o).1.Selected := by
  cases o with
  | registerFirmware name firmware => exact h.registerFirmware name firmware
  | unregisterFirmware name => exact h.unregisterFirmware name
  | setActiveFirmware name => exact h.setActiveFirmware name

theorem selected_of_reachable (h : (machine F).Reachable .new m) : m.Selected := by
  refine h.invariant selected_new ?_
  rintro m o _ hm rfl
  exact hm.perform o

/-- **The selection of a manager.**  In every state the active name is empty or that of an
application, and every operation sends the calls that it should. -/
theorem selection_accounted (h : (machine F).Reachable .new m) :
    m.NamesActive ∧ ∀ o, m.Accounts o :=
  ⟨(selected_of_reachable h).namesActive, (selected_of_reachable h).accounts⟩

/-- Two applications, of which the second is selected in the end. -/
theorem selection_accounted_two :
    let m := ((new.perform (.registerFirmware "a" (some false))).1.perform
      (.registerFirmware "b" (some true))).1
    m.NamesActive ∧ m.Accounts (.setActiveFirmware "b") ∧
      (m.perform (.setActiveFirmware "b")).2 = ([(false, .shutdown)], true) := by
  intro m
  have hrun : (machine Bool).Run .new
      [.registerFirmware "a" (some false), .registerFirmware "b" (some true)] m :=
    .cons rfl (.cons rfl (.nil m))
  have haccounted := selection_accounted ⟨_, hrun⟩
  exact ⟨haccounted.1, haccounted.2 _, by decide⟩

end FirmwareManager

end Firmware

end EFS
