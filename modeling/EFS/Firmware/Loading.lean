import EFS.Firmware.Lifecycle
import EFS.Firmware.Selection

/-!
# Loading firmware

`CPU::loadFirmware` registers an application under a name and selects that name, whether or not the
registration was refused.

* `loadsActive_iff` : the application that is loaded is active afterwards iff no other one has its
  name already (or, for the empty name, iff it was active before).
* `not_loadsActive_default` : a second application under the default name is not.
-/

namespace EFS

namespace Firmware

open EFS.Cpu

variable {F W : Type}

namespace FirmwareManager

variable {m : FirmwareManager F} {name : String} {f : F}

theorem activeFirmware_setActiveFirmware (h : m.firmwareRegistry.find? name = some f) :
    (m.setActiveFirmware name).1.activeFirmware = some f := by
  by_cases ha : m.activeName = name
  · rw [setActiveFirmware_of_active h ha, activeFirmware, ha, h]
  · rw [setActiveFirmware_of_inactive h ha]
    exact h

/-- Which application is active after `registerFirmware(name, f)` and `setActiveFirmware(name)`. -/
theorem Selected.activeFirmware_load (h : m.Selected) (name : String) (f : F) :
    ((m.registerFirmware name (some f)).1.setActiveFirmware name).1.activeFirmware =
      if name = "" then m.activeFirmware else some ((m.firmwareRegistry.find? name).getD f) := by
  split_ifs with hname
  · rw [registerFirmware_of_refused (.inl hname), hname,
      setActiveFirmware_of_unknown h.unnamed]
  · cases hreg : m.firmwareRegistry.find? name with
    | some g =>
      rw [registerFirmware_of_refused (.inr (.inr (by rw [hreg]; rfl)))]
      exact activeFirmware_setActiveFirmware hreg
    | none =>
      refine activeFirmware_setActiveFirmware ?_
      rw [registerFirmware_of_new hname hreg, OrderedMap.find?_insert, if_pos rfl]
      rfl

end FirmwareManager

namespace CPU

variable {E : World F W} {c : CPU F W}

/-- `firmware()`. -/
def firmware (c : CPU F W) : Option F := c.firmwareManager.activeFirmware

/-- `loadFirmware(f, name)` makes `f` the active application, or returns `false` and changes neither
the registry nor the selection. -/
structure LoadsActive (E : World F W) (c : CPU F W) (f : F) (name : String) : Prop where
  loaded : (c.loadFirmware E (some f) name).2 = true →
    (c.loadFirmware E (some f) name).1.firmware = some f
  refused : (c.loadFirmware E (some f) name).2 = false →
    (c.loadFirmware E (some f) name).1.firmwareManager = c.firmwareManager

/-! ### The manager of a CPU -/

theorem firmwareManager_loadFirmware (f : F) (name : String) :
    (c.loadFirmware E (some f) name).1.firmwareManager =
      ((c.firmwareManager.registerFirmware name (some f)).1.setActiveFirmware name).1 := by
  show (((c.stop E).firmwareManager.registerFirmware name (some f)).1.setActiveFirmware name).1 = _
  rw [stop_firmwareManager]

theorem firmwareManager_start : (c.start E).firmwareManager = c.firmwareManager := by
  unfold start
  split_ifs <;> rfl

theorem firmwareManager_step : (c.step E).1.firmwareManager = c.firmwareManager := by
  unfold step
  split_ifs
  · rfl
  · rcases E.tick c.world with ⟨world, _ | e⟩
    · dsimp only
      split_ifs <;> rfl
    · rfl

theorem firmwareManager_runLoop (n : ℕ) :
    (runLoop E n c).1.firmwareManager = c.firmwareManager := by
  induction n generalizing c with
  | zero => rfl
  | succ n ih =>
    unfold runLoop
    split_ifs
    · rfl
    · rfl
    · have hstep : (c.step E).1.firmwareManager = c.firmwareManager := firmwareManager_step
      generalize c.step E = r at hstep ⊢
      rcases r with ⟨d, _ | e⟩
      · exact ih.trans hstep
      · exact hstep

/-- What an operation of the CPU does to the manager, operations of the manager do. -/
theorem reachable_perform (o : Op F) :
    (FirmwareManager.machine F).Reachable c.firmwareManager (c.perform E o).firmwareManager := by
  have hone (m : FirmwareManager F) (o : FirmwareManager.Op F) :
      (FirmwareManager.machine F).Reachable m (m.perform o).1 := ⟨[o], .single rfl⟩
  cases o with
  | loadFirmware firmware name =>
    cases firmware with
    | none => exact .refl _
    | some f =>
      show (FirmwareManager.machine F).Reachable _
        (c.loadFirmware E (some f) name).1.firmwareManager
      -- the name is selected whether or not the registration was refused
      rw [firmwareManager_loadFirmware]
      exact (hone c.firmwareManager (.registerFirmware name (some f))).tail
        (l := .setActiveFirmware name) rfl
  | unloadFirmware =>
    simp only [perform, unloadFirmware]
    split_ifs
    · rw [stop_firmwareManager]
    · simp only [unregisterFirmware, deliver, stop_firmwareManager]
      exact hone c.firmwareManager (.unregisterFirmware c.firmwareManager.activeName)
  | start => exact firmwareManager_start (E := E) (c := c) ▸ .refl _
  | stop => exact stop_firmwareManager (E := E) c ▸ .refl _
  | reset => exact .refl _
  | step => exact firmwareManager_step (E := E) (c := c) ▸ .refl _
  | run cycles =>
    show (FirmwareManager.machine F).Reachable _ (runLoop E _ (c.start E)).1.firmwareManager
    rw [firmwareManager_runLoop, firmwareManager_start]
  | registerFirmware name firmware => exact hone c.firmwareManager (.registerFirmware name firmware)
  | unregisterFirmware name => exact hone c.firmwareManager (.unregisterFirmware name)
  | setActiveFirmware name => exact hone c.firmwareManager (.setActiveFirmware name)
  | setPower power => exact .refl _

theorem reachable_firmwareManager {power : PowerState} {world : W}
    (h : (CPU.machine E).Reachable (.new power world) c) :
    (FirmwareManager.machine F).Reachable .new c.firmwareManager := by
  refine h.invariant (I := fun c => (FirmwareManager.machine F).Reachable .new c.firmwareManager)
    (.refl _) ?_
  rintro c o _ ⟨ks, hks⟩ rfl
  obtain ⟨ls, hls⟩ := reachable_perform (E := E) (c := c) o
  exact ⟨ks ++ ls, hks.append hls⟩

/-- **Loading firmware.**  The application that is loaded is the active one afterwards iff no other
application has its name; under the empty name, iff it was active before. -/
theorem loadsActive_iff (E : World F W) (f : F) (name : String)
    (h : (FirmwareManager.machine F).Reachable .new c.firmwareManager) :
    c.LoadsActive E f name ↔ if name = "" then c.firmware = some f
      else ∀ g, c.firmwareManager.firmwareRegistry.find? name = some g → g = f := by
  have hselected : c.firmwareManager.Selected := FirmwareManager.selected_of_reachable h
  have hactive : (c.loadFirmware E (some f) name).1.firmware =
      if name = "" then c.firmware
      else some ((c.firmwareManager.firmwareRegistry.find? name).getD f) := by
    rw [firmware, firmwareManager_loadFirmware, hselected.activeFirmware_load]
    rfl
  have hiff : c.LoadsActive E f name ↔ (c.loadFirmware E (some f) name).1.firmware = some f :=
    ⟨fun h => h.loaded rfl, fun h => ⟨fun _ => h, fun hfalse => nomatch hfalse⟩⟩
  rw [hiff, hactive]
  split_ifs
  · exact .rfl
  · cases c.firmwareManager.firmwareRegistry.find? name with
    | none => simp
    | some g => simp

/-- Surroundings in which nothing happens. -/
def still : World Bool Unit := ⟨fun w => (w, none), id, fun _ _ => id⟩

/-- A CPU with one application under the default name. -/
def withDefault : CPU Bool Unit := ((new .on ()).loadFirmware still (some false) "default").1

theorem reachable_withDefault :
    (FirmwareManager.machine Bool).Reachable .new withDefault.firmwareManager := by
  have hrun : (machine still).Run (new .on ()) [.loadFirmware (some false) "default"] withDefault :=
    .single rfl
  exact reachable_firmwareManager ⟨_, hrun⟩

/-- An application with a name of its own is loaded. -/
theorem loadsActive_other : withDefault.LoadsActive still true "other" :=
  (loadsActive_iff still true "other" reachable_withDefault).2 (by decide)

/-- A second application under the default name is not, and `loadFirmware` returns `true`. -/
theorem not_loadsActive_default :
    (FirmwareManager.machine Bool).Reachable .new withDefault.firmwareManager ∧
      ¬ withDefault.LoadsActive still true "default" := by
  refine ⟨reachable_withDefault, ?_⟩
  intro h
  have hfirmware := h.loaded rfl
  exact absurd hfirmware (by decide)

end CPU

end Firmware

end EFS
