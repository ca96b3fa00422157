import EFS.Data.OrderedMap
import Mathlib.Data.String.Basic

/-!
# The firmware manager

A `FirmwareManager` keeps the firmware applications `F` under their names, and the name of the
active one.  It calls the applications and reads nothing back from them, so an operation here
returns the calls that it makes, in order, beside the manager that it leaves.

The selection is coherent in every state the operations reach (`Selected`): the active name is
that of a registered application, and there is one as soon as anything is registered.
-/

namespace EFS

namespace Firmware

/-- The member functions of a firmware application (`initialize` is a keyword of Lean). -/
inductive Call where
  | initialise
  | update
  | shutdown
  | reset
  deriving DecidableEq

/-- The registry of firmware by name, and the name of the active one. -/
structure FirmwareManager (F : Type) where
  firmwareRegistry : OrderedMap String F (· < ·)
  activeName : String

namespace FirmwareManager

variable {F : Type} (m : FirmwareManager F)

/-- A manager without firmware. -/
def new : FirmwareManager F := ⟨.empty, ""⟩

/-- `activeFirmware()`, none if the active name is not registered. -/
def activeFirmware : Option F := m.firmwareRegistry.find? m.activeName

/-- The delivery of `call` to the active application, if there is one. -/
def callActive (call : Call) : List (F × Call) :=
  match m.activeFirmware with
  | some f => [(f, call)]
  | none => []

/-- The calls that `initialize()` makes. -/
def initialise : List (F × Call) := m.callActive .initialise

/-- The calls that `update()` makes. -/
def update : List (F × Call) := m.callActive .update

/-- The calls that `shutdown()` makes. -/
def shutdown : List (F × Call) := m.callActive .shutdown

/-- The calls that `reset()` makes. -/
def reset : List (F × Call) := m.callActive .reset

/-- `registerFirmware()` refuses a null pointer, an empty name and a name in use. -/
def registerFirmware (name : String) (firmware : Option F) : FirmwareManager F × Bool :=
  match firmware with
  | none => (m, false)
  | some f =>
    if name = "" then (m, false)
    else if (m.firmwareRegistry.find? name).isSome then (m, false)
    else
      -- the first application to be registered is selected
      ({ firmwareRegistry := m.firmwareRegistry.insert name f
         activeName := if m.activeName = "" then name else m.activeName }, true)

/-- The first name of the registry, if the selection is empty. -/
def reselect : FirmwareManager F :=
  if m.activeName = "" then
    match m.firmwareRegistry.entries.head? with
    | some e => { m with activeName := e.1 }
    | none => m
  else m

/-- `unregisterFirmware()`: the manager, the calls it makes, and whether the name was registered.
-/
def unregisterFirmware (name : String) : FirmwareManager F × List (F × Call) × Bool :=
  match m.firmwareRegistry.find? name with
  | none => (m, [], false)
  | some f =>
    let rest := m.firmwareRegistry.erase name
    if m.activeName = name then (reselect ⟨rest, ""⟩, [(f, .shutdown)], true)
    else (reselect ⟨rest, m.activeName⟩, [], true)

/-- `setActiveFirmware()`: the manager, the calls it makes, and whether the name was registered.
-/
def setActiveFirmware (name : String) : FirmwareManager F × List (F × Call) × Bool :=
  match m.firmwareRegistry.find? name with
  | none => (m, [], false)
  | some _ =>
    if m.activeName = name then (m, [], true)
    else ({ m with activeName := name }, m.shutdown, true)

/-! ### The selection -/

/-- No application has the empty name; a name that is selected is registered, and one is selected
as soon as something is registered. -/
structure Selected : Prop where
  unnamed : m.firmwareRegistry.find? "" = none
  active : m.activeName ≠ "" → m.activeFirmware.isSome
  empty : m.activeName = "" → ∀ k, m.firmwareRegistry.find? k = none

variable {m}

theorem callActive_of_some {f : F} (h : m.activeFirmware = some f) (call : Call) :
    m.callActive call = [(f, call)] := by
  simp [callActive, h]

theorem callActive_of_none (h : m.activeFirmware = none) (call : Call) :
    m.callActive call = [] := by
  simp [callActive, h]

theorem selected_new : (new : FirmwareManager F).Selected where
  unnamed := rfl
  active h := absurd rfl h
  empty _ _ := rfl

theorem Selected.activeFirmware_eq_none (h : m.Selected) :
    m.activeFirmware = none ↔ m.activeName = "" := by
  constructor
  · intro hn
    by_contra hne
    simpa [hn] using h.active hne
  · intro he
    exact h.empty he _

theorem Selected.exists_active (h : m.Selected) (hne : m.activeName ≠ "") :
    ∃ f, m.activeFirmware = some f :=
  Option.isSome_iff_exists.1 (h.active hne)

theorem Selected.activeName_ne (h : m.Selected) {f : F} (hf : m.activeFirmware = some f) :
    m.activeName ≠ "" :=
  fun he => by simp [h.activeFirmware_eq_none.2 he] at hf

theorem Selected.registerFirmware (h : m.Selected) (name : String) (firmware : Option F) :
    (m.registerFirmware name firmware).1.Selected := by
  cases firmware with
  | none => exact h
  | some f =>
    simp only [FirmwareManager.registerFirmware]
    split_ifs with hname hreg hact
    · exact h
    · exact h
    · refine ⟨?_, ?_, fun he => absurd he hname⟩
      · simp [OrderedMap.find?_insert, Ne.symm hname, h.unnamed]
      · intro _
        simp [activeFirmware, OrderedMap.find?_insert]
    · refine ⟨?_, ?_, fun he => absurd he hact⟩
      · simp [OrderedMap.find?_insert, Ne.symm hname, h.unnamed]
      · intro _
        have hs : (m.firmwareRegistry.find? m.activeName).isSome := h.active hact
        simp only [activeFirmware, OrderedMap.find?_insert]
        split_ifs
        · rfl
        · exact hs

theorem registerFirmware_of_refused {name : String} {firmware : Option F}
    (h : name = "" ∨ firmware = none ∨ (m.firmwareRegistry.find? name).isSome) :
    (m.registerFirmware name firmware).1 = m := by
  cases firmware with
  | none => rfl
  | some f =>
    rcases h with h | h | h
    · simp [registerFirmware, h]
    · cases h
    · simp [registerFirmware, h]

theorem registerFirmware_of_new {name : String} {f : F} (hname : name ≠ "")
    (hreg : m.firmwareRegistry.find? name = none) :
    (m.registerFirmware name (some f)).1 =
      { firmwareRegistry := m.firmwareRegistry.insert name f
        activeName := if m.activeName = "" then name else m.activeName } := by
  simp [registerFirmware, hname, hreg]

/-- A selection that was made is kept. -/
theorem Selected.registerFirmware_active (h : m.Selected) (hne : m.activeName ≠ "") (name : String)
    (firmware : Option F) :
    (m.registerFirmware name firmware).1.activeName = m.activeName ∧
      (m.registerFirmware name firmware).1.activeFirmware = m.activeFirmware := by
  by_cases hr : name = "" ∨ firmware = none ∨ (m.firmwareRegistry.find? name).isSome
  · rw [registerFirmware_of_refused hr]
    exact ⟨rfl, rfl⟩
  · obtain ⟨hname, hf, hreg⟩ : name ≠ "" ∧ firmware ≠ none ∧
        ¬ (m.firmwareRegistry.find? name).isSome := by simpa [not_or] using hr
    obtain ⟨f, rfl⟩ := Option.ne_none_iff_exists'.1 hf
    have hother : m.activeName ≠ name := by
      rintro rfl
      exact hreg (h.active hne)
    rw [registerFirmware_of_new hname (by simpa using hreg)]
    simp [activeFirmware, OrderedMap.find?_insert, hne, hother]

/-- The first remaining name is selected if there is one. -/
theorem selected_reselect {reg : OrderedMap String F (· < ·)} (hu : reg.find? "" = none) :
    (reselect ⟨reg, ""⟩).Selected := by
  cases he : reg.entries.head? with
  | some e =>
    have hmem : reg.find? e.1 = some e.2 := OrderedMap.mem_entries_iff.1 (List.mem_of_head? he)
    have hne : e.1 ≠ "" := fun h => by simp [h, hu] at hmem
    have hr : reselect ⟨reg, ""⟩ = ⟨reg, e.1⟩ := by simp [reselect, he]
    rw [hr]
    exact ⟨hu, fun _ => by simp [activeFirmware, hmem], fun h => absurd h hne⟩
  | none =>
    have hr : reselect ⟨reg, ""⟩ = ⟨reg, ""⟩ := by simp [reselect, he]
    rw [hr]
    refine ⟨hu, fun h => absurd rfl h, ?_⟩
    intro _ k
    simp [OrderedMap.find?, List.head?_eq_none_iff.1 he]

theorem reselect_firmwareRegistry (m : FirmwareManager F) :
    m.reselect.firmwareRegistry = m.firmwareRegistry := by
  unfold reselect
  split_ifs
  · cases m.firmwareRegistry.entries.head? <;> rfl
  · rfl

theorem unregisterFirmware_of_unknown {name : String} (h : m.firmwareRegistry.find? name = none) :
    m.unregisterFirmware name = (m, [], false) := by
  simp [unregisterFirmware, h]

theorem unregisterFirmware_of_active {name : String} {f : F}
    (h : m.firmwareRegistry.find? name = some f) (ha : m.activeName = name) :
    m.unregisterFirmware name =
      (reselect ⟨m.firmwareRegistry.erase name, ""⟩, [(f, .shutdown)], true) := by
  simp [unregisterFirmware, h, ha]

theorem Selected.unregisterFirmware_inactive (h : m.Selected) {name : String} {f : F}
    (hreg : m.firmwareRegistry.find? name = some f) (ha : m.activeName ≠ name) :
    m.unregisterFirmware name =
      ({ m with firmwareRegistry := m.firmwareRegistry.erase name }, [], true) := by
  have hne : m.activeName ≠ "" := fun he => by simp [h.empty he name] at hreg
  simp [unregisterFirmware, hreg, ha, reselect, hne]

theorem Selected.unregisterFirmware (h : m.Selected) (name : String) :
    (m.unregisterFirmware name).1.Selected := by
  have hu : (m.firmwareRegistry.erase name).find? "" = none := by
    simp [OrderedMap.find?_erase, h.unnamed]
  cases hreg : m.firmwareRegistry.find? name with
  | none => rwa [unregisterFirmware_of_unknown hreg]
  | some f =>
    by_cases ha : m.activeName = name
    · rw [unregisterFirmware_of_active hreg ha]
      exact selected_reselect hu
    · rw [h.unregisterFirmware_inactive hreg ha]
      refine ⟨hu, ?_, ?_⟩
      · intro hne
        simpa [activeFirmware, OrderedMap.find?_erase, ha] using h.active hne
      · intro he
        simp [h.empty he name] at hreg

theorem setActiveFirmware_of_unknown {name : String} (h : m.firmwareRegistry.find? name = none) :
    m.setActiveFirmware name = (m, [], false) := by
  simp [setActiveFirmware, h]

theorem setActiveFirmware_of_active {name : String} {f : F}
    (h : m.firmwareRegistry.find? name = some f) (ha : m.activeName = name) :
    m.setActiveFirmware name = (m, [], true) := by
  simp [setActiveFirmware, h, ha]

theorem setActiveFirmware_of_inactive {name : String} {f : F}
    (h : m.firmwareRegistry.find? name = some f) (ha : m.activeName ≠ name) :
    m.setActiveFirmware name = ({ m with activeName := name }, m.shutdown, true) := by
  simp [setActiveFirmware, h, ha]

theorem Selected.setActiveFirmware (h : m.Selected) (name : String) :
    (m.setActiveFirmware name).1.Selected := by
  cases hreg : m.firmwareRegistry.find? name with
  | none => rwa [setActiveFirmware_of_unknown hreg]
  | some f =>
    by_cases ha : m.activeName = name
    · rwa [setActiveFirmware_of_active hreg ha]
    · rw [setActiveFirmware_of_inactive hreg ha]
      have hne : name ≠ "" := fun hn => by simp [hn, h.unnamed] at hreg
      exact ⟨h.unnamed, fun _ => by simp [activeFirmware, hreg], fun he => absurd he hne⟩

end FirmwareManager

end Firmware

end EFS
