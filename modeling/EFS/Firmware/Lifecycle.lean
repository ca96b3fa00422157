import EFS.Firmware.Cpu
import EFS.LTS.Histories

/-!
# The lifecycle of firmware

An application should receive `update` only right after `initialise` or another `update`, and
`shutdown` at most once after each `initialise` and never before the first one (`Obeys`).

The manager does not know whether the active application has been initialised: it shuts the
application down on every change of the selection, and initialises none.  `lifecycle_obeyed` says
that every run obeys the lifecycle whose steps leave the selection alone in the states where
somebody depends on it (`Careful`), and `Tended.breaks_of_not_careful` that any other step breaks
it, by itself or with one more step.

The invariant (`Tended`) is that an application is up, i.e. initialised and not shut down since,
iff it is the active one of a running CPU.
-/

namespace EFS

namespace Firmware

open EFS.Cpu

/-- The last call was `initialise` or `update`. -/
def Started (calls : List Call) : Prop :=
  calls.getLast? = some .initialise ∨ calls.getLast? = some .update

/-- `initialise` has been called, and `shutdown` has not been called since. -/
def Up (calls : List Call) : Prop :=
  ∃ pre post, calls = pre ++ .initialise :: post ∧ .shutdown ∉ post

/-- The calls that an application may receive after `calls`. -/
def Permits (calls : List Call) : Call → Prop
  | .update => Started calls
  | .shutdown => Up calls
  | .initialise | .reset => True

/-- Every call was permitted when it was delivered. -/
def Obeys (calls : List Call) : Prop :=
  ∀ pre call post, calls = pre ++ call :: post → Permits pre call

/-! ### One more call -/

theorem up_iff_since {calls : List Call} : Up calls ↔ Since .initialise (· = .shutdown) calls := by
  refine exists₂_congr ?_
  intro pre post
  exact and_congr_right' List.forall_mem_ne'.symm

theorem obeys_nil : Obeys [] := permitted_nil

theorem obeys_snoc {calls : List Call} {call : Call} :
    Obeys (calls ++ [call]) ↔ Obeys calls ∧ Permits calls call := permitted_snoc

theorem not_up_nil : ¬ Up [] := mt up_iff_since.1 not_since_nil

theorem up_snoc {calls : List Call} {call : Call} :
    Up (calls ++ [call]) ↔ call = .initialise ∨ Up calls ∧ call ≠ .shutdown := by
  rw [up_iff_since, since_snoc, up_iff_since]

theorem up_snoc_initialise (calls : List Call) : Up (calls ++ [.initialise]) :=
  up_snoc.2 (.inl rfl)

theorem not_up_snoc_shutdown (calls : List Call) : ¬ Up (calls ++ [.shutdown]) := by
  simp [up_snoc]

theorem up_snoc_iff {calls : List Call} {call : Call} (hi : call ≠ .initialise)
    (hs : call ≠ .shutdown) : Up (calls ++ [call]) ↔ Up calls := by
  simp [up_snoc, hi, hs]

theorem started_snoc {calls : List Call} {call : Call} :
    Started (calls ++ [call]) ↔ call = .initialise ∨ call = .update := by
  simp [Started]

/-! ### Whom a call reaches -/

variable {F W : Type} [DecidableEq F]

/-- The calls of `calls` that application `f` receives. -/
def receivedBy (f : F) (calls : List (F × Call)) : List Call :=
  (calls.filter fun x => x.1 = f).map Prod.snd

theorem receivedBy_append (f : F) (xs ys : List (F × Call)) :
    receivedBy f (xs ++ ys) = receivedBy f xs ++ receivedBy f ys := by
  simp [receivedBy]

theorem receivedBy_singleton (f g : F) (call : Call) :
    receivedBy f [(g, call)] = if g = f then [call] else [] := by
  by_cases h : g = f <;> simp [receivedBy, h]

namespace CPU

variable {E : World F W} {c : CPU F W}

/-- The calls that application `f` has received so far. -/
def callsTo (c : CPU F W) (f : F) : List Call := receivedBy f c.calls

theorem callsTo_deliver (calls : List (F × Call)) (f : F) :
    (c.deliver E calls).callsTo f = c.callsTo f ++ receivedBy f calls :=
  receivedBy_append f c.calls calls

/-- A CPU in which an application is up iff it is the active one and the CPU is running, and has
then just been initialised or updated. -/
structure Tended (c : CPU F W) : Prop where
  selected : c.firmwareManager.Selected
  obeys : ∀ f, Obeys (c.callsTo f)
  up_iff : ∀ f, Up (c.callsTo f) ↔ c.running ∧ c.firmwareManager.activeFirmware = some f
  started : ∀ f, Up (c.callsTo f) → Started (c.callsTo f)

/-- The step leaves the selection alone, except that an application may be selected or removed
while no other one is concerned, and does not reset a running application. -/
def Careful (c : CPU F W) : Op F → Prop
  | .loadFirmware firmware name =>
    firmware = none ∨ name = "" ∨ c.firmwareManager.activeName = "" ∨
      c.firmwareManager.activeName = name
  | .unloadFirmware => c.firmwareManager.activeName = ""
  | .reset => c.running → c.firmwareManager.activeName = ""
  | .registerFirmware name firmware =>
    c.running → c.firmwareManager.activeName = "" → name = "" ∨ firmware = none
  | .unregisterFirmware name =>
    name ≠ "" → c.firmwareManager.activeName = name →
      c.running ∧ ∀ k, (c.firmwareManager.firmwareRegistry.find? k).isSome → k = name
  | .setActiveFirmware name =>
    (c.firmwareManager.firmwareRegistry.find? name).isSome → c.firmwareManager.activeName = name
  | .start | .stop | .step | .run _ | .setPower _ => True

/-- The CPU with the operations of its user. -/
def machine (E : World F W) : LTS (CPU F W) (Op F) where
  step c o d := d = c.perform E o

/-! ### What one operation preserves -/

theorem tended_new (power : PowerState) (world : W) : (new power world : CPU F W).Tended where
  selected := FirmwareManager.selected_new
  obeys _ := obeys_nil
  up_iff f := by simp [not_up_nil, callsTo, new, receivedBy]
  started f h := absurd h not_up_nil

theorem Tended.not_up (h : c.Tended) {f : F}
    (hf : ¬ (c.running ∧ c.firmwareManager.activeFirmware = some f)) : ¬ Up (c.callsTo f) :=
  fun hu => hf ((h.up_iff f).1 hu)

/-- Changes without a call, which leave every application to be up as it was. -/
theorem Tended.congr (h : c.Tended) {d : CPU F W} (hm : d.firmwareManager.Selected)
    (hc : d.calls = c.calls)
    (hup : ∀ f, (d.running ∧ d.firmwareManager.activeFirmware = some f) ↔
      (c.running ∧ c.firmwareManager.activeFirmware = some f)) : d.Tended := by
  have hcalls : ∀ f, d.callsTo f = c.callsTo f := fun f => congrArg (receivedBy f) hc
  refine ⟨hm, fun f => hcalls f ▸ h.obeys f, ?_, ?_⟩
  · intro f
    rw [hcalls, hup]
    exact h.up_iff f
  · intro f hu
    rw [hcalls] at hu ⊢
    exact h.started f hu

/-- A call of the active application, which is up afterwards iff the CPU is then running. -/
theorem Tended.callActive (h : c.Tended) (d : CPU F W) (hm : d.firmwareManager = c.firmwareManager)
    (hc : d.calls = c.calls) (call : Call)
    (hcall : ∀ f, c.firmwareManager.activeFirmware = some f →
      Permits (c.callsTo f) call ∧ (Up (c.callsTo f ++ [call]) ↔ d.running) ∧
        (d.running → call = .initialise ∨ call = .update)) :
    (d.deliver E (c.firmwareManager.callActive call)).Tended := by
  have hd : ∀ f, d.callsTo f = c.callsTo f := fun f => congrArg (receivedBy f) hc
  -- only the active application receives the call
  have hto : ∀ f, (d.deliver E (c.firmwareManager.callActive call)).callsTo f =
      if c.firmwareManager.activeFirmware = some f then c.callsTo f ++ [call]
      else c.callsTo f := by
    intro f
    rw [callsTo_deliver, hd]
    cases ha : c.firmwareManager.activeFirmware with
    | none => simp [FirmwareManager.callActive_of_none ha, receivedBy]
    | some g =>
      rw [FirmwareManager.callActive_of_some ha, receivedBy_singleton]
      by_cases hg : g = f <;> simp [hg]
  -- and no other one is up, before or after it
  have hother : ∀ f, c.firmwareManager.activeFirmware ≠ some f → ¬ Up (c.callsTo f) :=
    fun f hf => h.not_up fun hr => hf hr.2
  refine ⟨hm ▸ h.selected, ?_, ?_, ?_⟩
  · intro f
    rw [hto]
    split_ifs with hf
    · exact obeys_snoc.2 ⟨h.obeys f, (hcall f hf).1⟩
    · exact h.obeys f
  · intro f
    rw [hto]
    show _ ↔ d.running = true ∧ d.firmwareManager.activeFirmware = some f
    rw [hm]
    split_ifs with hf
    · exact (hcall f hf).2.1.trans (by simp [hf])
    · exact iff_of_false (hother f hf) fun hr => hf hr.2
  · intro f
    rw [hto]
    split_ifs with hf
    · intro hu
      exact started_snoc.2 ((hcall f hf).2.2 ((hcall f hf).2.1.1 hu))
    · exact fun hu => absurd hu (hother f hf)

theorem Tended.start (h : c.Tended) : (c.start E).Tended := by
  unfold CPU.start
  split_ifs with hr
  · exact h
  · refine h.callActive { c with running := true } rfl rfl .initialise fun f _ =>
      ⟨trivial, ?_, fun _ => .inl rfl⟩
    exact iff_of_true (up_snoc_initialise _) rfl

theorem Tended.stop (h : c.Tended) : (c.stop E).Tended := by
  unfold CPU.stop
  split_ifs with hr
  · refine h.callActive { c with running := false } rfl rfl .shutdown ?_
    intro f hf
    refine ⟨(h.up_iff f).2 ⟨hr, hf⟩, ?_, ?_⟩
    · exact iff_of_false (not_up_snoc_shutdown _) (by simp)
    · intro hr
      cases hr
  · exact h

theorem Tended.reset (h : c.Tended) (hc : c.running → c.firmwareManager.activeName = "") :
    (c.reset E).Tended := by
  have hd : ({ c with cycleCount := 0 }.deliver E c.firmwareManager.reset).Tended := by
    refine h.callActive { c with cycleCount := 0 } rfl rfl .reset ?_
    intro f hf
    have hr : ¬ c.running := fun hr => h.selected.activeName_ne hf (hc hr)
    refine ⟨trivial, ?_, fun hr' => absurd hr' hr⟩
    rw [up_snoc_iff (by decide) (by decide)]
    exact iff_of_false (h.not_up fun hr' => hr hr'.1) hr
  exact hd.congr hd.selected rfl fun _ => .rfl

theorem Tended.step (h : c.Tended) : (c.step E).1.Tended := by
  unfold CPU.step
  split_ifs with hp
  · exact h
  · rcases E.tick c.world with ⟨world, _ | e⟩
    · let d : CPU F W := { c with cycleCount := c.cycleCount + 1, world }
      show (if c.running then d.deliver E (c.firmwareManager.callActive .update) else d).Tended
      split_ifs with hr
      · refine h.callActive d rfl rfl .update ?_
        intro f hf
        have hu : Up (c.callsTo f) := (h.up_iff f).2 ⟨hr, hf⟩
        refine ⟨h.started f hu, ?_, fun _ => .inr rfl⟩
        rw [up_snoc_iff (by decide) (by decide)]
        exact iff_of_true hu hr
      · exact h.congr h.selected rfl fun _ => .rfl
    · exact h.congr h.selected rfl fun _ => .rfl

theorem Tended.runLoop (n : ℕ) (h : c.Tended) : (runLoop E n c).1.Tended := by
  induction n generalizing c with
  | zero => exact h
  | succ n ih =>
    unfold CPU.runLoop
    split_ifs
    · exact h
    · exact h
    · have hs : (c.step E).1.Tended := h.step
      generalize c.step E = r at hs ⊢
      rcases r with ⟨d, _ | e⟩
      · exact ih hs
      · exact hs

theorem Tended.registerFirmware (h : c.Tended) {name : String} {firmware : Option F}
    (hc : c.running → c.firmwareManager.activeName = "" → name = "" ∨ firmware = none) :
    (c.registerFirmware name firmware).Tended := by
  refine h.congr (h.selected.registerFirmware name firmware) rfl fun f =>
    and_congr_right ?_
  intro hr
  show (c.firmwareManager.registerFirmware name firmware).1.activeFirmware = some f ↔ _
  by_cases hne : c.firmwareManager.activeName = ""
  · rw [FirmwareManager.registerFirmware_of_refused ((hc hr hne).imp_right .inl)]
  · rw [(h.selected.registerFirmware_active hne name firmware).2]

theorem Tended.unregisterFirmware (h : c.Tended) {name : String}
    (hc : name ≠ "" → c.firmwareManager.activeName = name →
      c.running ∧ ∀ k, (c.firmwareManager.firmwareRegistry.find? k).isSome → k = name) :
    (c.unregisterFirmware E name).Tended := by
  have hsel := h.selected.unregisterFirmware name
  simp only [CPU.unregisterFirmware]
  cases hreg : c.firmwareManager.firmwareRegistry.find? name with
  | none =>
    rw [FirmwareManager.unregisterFirmware_of_unknown hreg, deliver_nil]
    exact h
  | some f =>
    by_cases ha : c.firmwareManager.activeName = name
    · have hactive : c.firmwareManager.activeFirmware = some f := by
        rw [FirmwareManager.activeFirmware, ha, hreg]
      obtain ⟨hr, honly⟩ := hc (ha ▸ h.selected.activeName_ne hactive) ha
      -- the application is shut down as by `stop`, and nothing is selected in its place
      have hstop := h.stop (E := E)
      rw [CPU.stop, if_pos hr, FirmwareManager.shutdown,
        FirmwareManager.callActive_of_some hactive] at hstop
      rw [FirmwareManager.unregisterFirmware_of_active hreg ha] at hsel ⊢
      refine hstop.congr hsel rfl fun g => iff_of_false ?_ ?_
      · intro hg
        have hnone : (FirmwareManager.reselect
            ⟨c.firmwareManager.firmwareRegistry.erase name, ""⟩).activeFirmware = none := by
          rw [FirmwareManager.activeFirmware, FirmwareManager.reselect_firmwareRegistry,
            OrderedMap.find?_erase]
          split_ifs with hk
          · rfl
          · by_contra hk'
            exact hk (honly _ (Option.isSome_iff_ne_none.2 hk'))
        exact absurd (hnone.symm.trans hg.2) (by simp)
      · intro hg
        cases hg.1
    · rw [h.selected.unregisterFirmware_inactive hreg ha] at hsel ⊢
      rw [deliver_nil]
      refine h.congr hsel rfl ?_
      intro g
      simp [FirmwareManager.activeFirmware, OrderedMap.find?_erase, ha]

theorem Tended.registerStopped (h : c.Tended) (f : F) (name : String) :
    ((c.stop E).registerFirmware name (some f)).Tended :=
  h.stop.registerFirmware fun hr => absurd hr (by simp [stop_running])

omit [DecidableEq F] in
theorem registerStopped_firmwareManager (f : F) (name : String) :
    ((c.stop E).registerFirmware name (some f)).firmwareManager =
      (c.firmwareManager.registerFirmware name (some f)).1 := by
  rw [← stop_firmwareManager (E := E) c]
  rfl

theorem Tended.loadFirmware (h : c.Tended) {firmware : Option F} {name : String}
    (hc : firmware = none ∨ name = "" ∨ c.firmwareManager.activeName = "" ∨
      c.firmwareManager.activeName = name) : (c.loadFirmware E firmware name).1.Tended := by
  cases firmware with
  | none => exact h
  | some f =>
    have hr : ((c.stop E).registerFirmware name (some f)).Tended := h.registerStopped f name
    have hm : ((c.stop E).registerFirmware name (some f)).firmwareManager = _ :=
      registerStopped_firmwareManager f name
    show (((c.stop E).registerFirmware name (some f)).setActiveFirmware E name).Tended
    rw [setActiveFirmware_eq]
    · exact hr
    · rw [hm]
      intro hs
      by_cases hname : name = ""
      · rw [hname, (h.selected.registerFirmware _ _).unnamed] at hs
        cases hs
      · by_cases hact : c.firmwareManager.activeName = ""
        · rw [FirmwareManager.registerFirmware_of_new hname (h.selected.empty hact name)]
          exact if_pos hact
        · rw [(h.selected.registerFirmware_active hact name (some f)).1]
          simpa [hname, hact] using hc

theorem Tended.unloadFirmware (h : c.Tended) (hc : c.firmwareManager.activeName = "") :
    (c.unloadFirmware E).Tended := by
  simp only [CPU.unloadFirmware]
  rw [if_pos (by rw [stop_firmwareManager]; exact hc)]
  exact h.stop

/-- **What one careful step preserves.** -/
theorem Tended.perform (h : c.Tended) {o : Op F} (hc : c.Careful o) : (c.perform E o).Tended := by
  cases o with
  | loadFirmware firmware name => exact h.loadFirmware hc
  | unloadFirmware => exact h.unloadFirmware hc
  | start => exact h.start
  | stop => exact h.stop
  | reset => exact h.reset hc
  | step => exact h.step
  | run cycles => exact h.start.runLoop cycles.toNat
  | registerFirmware name firmware => exact h.registerFirmware hc
  | unregisterFirmware name => exact h.unregisterFirmware hc
  | setActiveFirmware name =>
    show (c.setActiveFirmware E name).Tended
    rwa [setActiveFirmware_eq hc]
  | setPower power => exact h.congr h.selected rfl fun _ => .rfl

/-! ### Runs -/

/-- **The lifecycle of firmware.**  In every run of careful steps, from a CPU that has just been
constructed, the calls that each application has received obey the lifecycle. -/
theorem lifecycle_obeyed (E : World F W) (power : PowerState) (world : W) (os : List (Op F))
    (c : CPU F W) (h : ((machine E).restrict Careful).Run (new power world) os c) (f : F) :
    Obeys (c.callsTo f) := by
  have htended : c.Tended := h.invariant (tended_new power world) fun s o t hs hstep => by
    obtain ⟨hc, rfl⟩ := hstep
    exact hs.perform hc
  exact htended.obeys f

/-- An application is loaded, started, updated twice and stopped. -/
theorem lifecycle_obeyed_startStop : ∃ c : CPU Unit Unit,
    c.callsTo () = [.initialise, .update, .update, .shutdown] ∧ Obeys (c.callsTo ()) :=
  ⟨_, rfl, lifecycle_obeyed ⟨fun w => (w, none), id, fun _ _ => id⟩ .on ()
    [.loadFirmware (some ()) "default", .start, .run 2, .stop] _
    (.cons ⟨.inr (.inr (.inl rfl)), rfl⟩ (.cons ⟨trivial, rfl⟩ (.cons ⟨trivial, rfl⟩
      (.cons ⟨trivial, rfl⟩ (.nil _))))) ()⟩

/-- Not so in every run: an application that is unloaded after `start()` is shut down by the
`stop()` of `unloadFirmware` and again by `unregisterFirmware`. -/
theorem not_lifecycle_obeyed :
    ¬ ∀ (E : World Unit Unit) (os : List (Op Unit)) (c : CPU Unit Unit),
      (machine E).Run (new .on ()) os c → ∀ f, Obeys (c.callsTo f) := by
  intro h
  have hrun := h ⟨fun w => (w, none), id, fun _ _ => id⟩
    [.loadFirmware (some ()) "default", .start, .unloadFirmware] _
    (.cons rfl (.cons rfl (.cons rfl (.nil _)))) ()
  have hup : Up [.initialise, .shutdown] := hrun [.initialise, .shutdown] .shutdown [] rfl
  exact not_up_snoc_shutdown [.initialise] hup

/-! ### The other steps -/

theorem not_obeys_stop {f : F} (hf : ¬ Up (c.callsTo f)) (hr : c.running)
    (ha : c.firmwareManager.activeFirmware = some f) : ¬ Obeys ((c.stop E).callsTo f) := by
  rw [stop, if_pos hr, FirmwareManager.shutdown, FirmwareManager.callActive_of_some ha,
    callsTo_deliver, receivedBy_singleton, if_pos rfl, obeys_snoc]
  exact fun h => hf h.2

/-- A shutdown of the active application is one too many if the CPU is not running; otherwise
the application that is selected next is not up. -/
theorem Tended.breaks_of_shutdown (h : c.Tended) {d : CPU F W} {g : F}
    (hg : c.firmwareManager.activeFirmware = some g)
    (hcalls : d.calls = c.calls ++ [(g, .shutdown)])
    (hr : d.running = c.running)
    (hnext : c.running → ∃ f, d.firmwareManager.activeFirmware = some f) :
    ∃ f, ¬ (Obeys (d.callsTo f) ∧ Obeys ((d.stop E).callsTo f)) := by
  have hto : ∀ f, d.callsTo f = if g = f then c.callsTo f ++ [.shutdown] else c.callsTo f := by
    intro f
    rw [callsTo, hcalls, receivedBy_append, receivedBy_singleton]
    split_ifs
    · rfl
    · exact List.append_nil _
  by_cases hrun : c.running
  · obtain ⟨f, hf⟩ := hnext hrun
    refine ⟨f, fun ho => not_obeys_stop ?_ (hr.trans hrun) hf ho.2⟩
    rw [hto]
    split_ifs with hgf
    · exact not_up_snoc_shutdown _
    · exact h.not_up fun hu => hgf (Option.some.inj (hg.symm.trans hu.2))
  · refine ⟨g, fun ho => h.not_up (f := g) (fun hu => hrun hu.1) ?_⟩
    have hobeys := ho.1
    rw [hto, if_pos rfl, obeys_snoc] at hobeys
    exact hobeys.2

theorem Tended.setActiveFirmware_breaks (h : c.Tended) {name : String} {f : F}
    (hreg : c.firmwareManager.firmwareRegistry.find? name = some f)
    (ha : c.firmwareManager.activeName ≠ name) :
    ∃ g, ¬ (Obeys ((c.setActiveFirmware E name).callsTo g) ∧
      Obeys (((c.setActiveFirmware E name).stop E).callsTo g)) := by
  have hne : c.firmwareManager.activeName ≠ "" := fun he => by
    simp [h.selected.empty he name] at hreg
  obtain ⟨g, hg⟩ := h.selected.exists_active hne
  have heq : c.setActiveFirmware E name = { c with
      firmwareManager := { c.firmwareManager with activeName := name } }.deliver E
        [(g, .shutdown)] := by
    rw [setActiveFirmware, FirmwareManager.setActiveFirmware_of_inactive hreg ha,
      FirmwareManager.shutdown, FirmwareManager.callActive_of_some hg]
  rw [heq]
  exact h.breaks_of_shutdown hg rfl rfl fun _ => ⟨f, hreg⟩

theorem Tended.unregisterFirmware_breaks (h : c.Tended) {name : String} (hname : name ≠ "")
    (ha : c.firmwareManager.activeName = name)
    (hc : ¬ (c.running ∧ ∀ k, (c.firmwareManager.firmwareRegistry.find? k).isSome → k = name)) :
    ∃ g, ¬ (Obeys ((c.unregisterFirmware E name).callsTo g) ∧
      Obeys (((c.unregisterFirmware E name).stop E).callsTo g)) := by
  obtain ⟨g, hg⟩ := h.selected.exists_active (ha ▸ hname)
  have hreg : c.firmwareManager.firmwareRegistry.find? name = some g := ha ▸ hg
  have hsel := h.selected.unregisterFirmware name
  have heq : c.unregisterFirmware E name = { c with
      firmwareManager := (c.firmwareManager.unregisterFirmware name).1 }.deliver E
        [(g, .shutdown)] := by
    rw [CPU.unregisterFirmware, FirmwareManager.unregisterFirmware_of_active hreg ha]
  rw [heq]
  refine h.breaks_of_shutdown hg rfl rfl ?_
  intro hr
  -- the CPU is running, so there is another application, and one is selected
  obtain ⟨k, hk, hkn⟩ : ∃ k, (c.firmwareManager.firmwareRegistry.find? k).isSome ∧ k ≠ name := by
    by_contra hno
    exact hc ⟨hr, fun k hk => by_contra fun hkn => hno ⟨k, hk, hkn⟩⟩
  refine Option.ne_none_iff_exists'.1 ?_
  intro hnone
  have hk' := hsel.empty (hsel.activeFirmware_eq_none.1 hnone) k
  rw [FirmwareManager.unregisterFirmware_of_active hreg ha,
    FirmwareManager.reselect_firmwareRegistry, OrderedMap.find?_erase, if_neg hkn] at hk'
  simp [hk'] at hk

/-- An application that has been reset is updated without having been initialised. -/
theorem not_obeys_reset {f : F} (hr : c.running) (ha : c.firmwareManager.activeFirmware = some f)
    (hE : ∀ w, (E.tick w).2 = none) :
    ¬ Obeys ((({ c.reset E with power := .on } : CPU F W).step E).1.callsTo f) := by
  have hreset : (c.reset E).callsTo f = c.callsTo f ++ [.reset] := by
    show receivedBy f (c.calls ++ c.firmwareManager.reset) = _
    rw [FirmwareManager.reset, FirmwareManager.callActive_of_some ha, receivedBy_append,
      receivedBy_singleton, if_pos rfl]
    rfl
  have hstep := calls_step (E := E) (c := { c.reset E with power := .on }) rfl hr (hE _)
  rw [callsTo, hstep, receivedBy_append]
  show ¬ Obeys ((c.reset E).callsTo f ++ receivedBy f c.firmwareManager.update)
  rw [hreset, FirmwareManager.update, FirmwareManager.callActive_of_some ha, receivedBy_singleton,
    if_pos rfl, obeys_snoc]
  rintro ⟨-, hs⟩
  have hcases : Call.reset = .initialise ∨ Call.reset = .update := started_snoc.1 hs
  rcases hcases with h | h <;> cases h

theorem Tended.loadFirmware_breaks (h : c.Tended) {f : F} {name : String} (hname : name ≠ "")
    (hne : c.firmwareManager.activeName ≠ "") (ha : c.firmwareManager.activeName ≠ name) :
    ∃ g, ¬ (Obeys ((c.loadFirmware E (some f) name).1.callsTo g) ∧
      Obeys (((c.loadFirmware E (some f) name).1.stop E).callsTo g)) := by
  have hr : ((c.stop E).registerFirmware name (some f)).Tended := h.registerStopped f name
  have hm : ((c.stop E).registerFirmware name (some f)).firmwareManager = _ :=
    registerStopped_firmwareManager f name
  -- the name is registered, now or already before
  obtain ⟨g, hg⟩ : ∃ g,
      (c.firmwareManager.registerFirmware name (some f)).1.firmwareRegistry.find? name =
        some g := by
    cases hreg : c.firmwareManager.firmwareRegistry.find? name with
    | some g =>
      rw [FirmwareManager.registerFirmware_of_refused (.inr (.inr (by simp [hreg])))]
      exact ⟨g, hreg⟩
    | none =>
      rw [FirmwareManager.registerFirmware_of_new hname hreg]
      exact ⟨f, by simp [OrderedMap.find?_insert]⟩
  refine hr.setActiveFirmware_breaks (hm ▸ hg) ?_
  rw [hm, (h.selected.registerFirmware_active hne name (some f)).1]
  exact ha

theorem Tended.unloadFirmware_breaks (h : c.Tended) (hne : c.firmwareManager.activeName ≠ "") :
    ∃ g, ¬ (Obeys ((c.unloadFirmware E).callsTo g) ∧
      Obeys (((c.unloadFirmware E).stop E).callsTo g)) := by
  have hm : (c.stop E).firmwareManager.activeName ≠ "" := by rwa [stop_firmwareManager]
  have heq : c.unloadFirmware E =
      (c.stop E).unregisterFirmware E (c.stop E).firmwareManager.activeName := if_neg hm
  rw [heq]
  exact h.stop.unregisterFirmware_breaks hm rfl fun hr => by simp [stop_running] at hr

theorem Tended.registerFirmware_breaks (h : c.Tended) {name : String} {f : F} (hr : c.running)
    (hname : name ≠ "") (he : c.firmwareManager.activeName = "") :
    ¬ Obeys (((c.registerFirmware name (some f)).stop E).callsTo f) := by
  have hactive : (c.registerFirmware name (some f)).firmwareManager.activeFirmware = some f := by
    show (c.firmwareManager.registerFirmware name (some f)).1.activeFirmware = some f
    rw [FirmwareManager.registerFirmware_of_new hname (h.selected.empty he name)]
    simp [FirmwareManager.activeFirmware, he, OrderedMap.find?_insert]
  refine not_obeys_stop (h.not_up ?_) hr hactive
  intro hu
  rw [h.selected.activeFirmware_eq_none.2 he] at hu
  cases hu.2

/-- **Any other step breaks the lifecycle**: at once, or with one of the continuations `stop()` and
`step()` (of a CPU that is powered on). -/
theorem Tended.breaks_of_not_careful (h : c.Tended) (hE : ∀ w, (E.tick w).2 = none) {o : Op F}
    (hc : ¬ c.Careful o) :
    (∃ f, ¬ (Obeys ((c.perform E o).callsTo f) ∧ Obeys (((c.perform E o).stop E).callsTo f))) ∨
      ∃ f, ¬ Obeys ((({ c.perform E o with power := .on } : CPU F W).step E).1.callsTo f) := by
  cases o with
  | loadFirmware firmware name =>
    obtain ⟨hf, hname, hne, ha⟩ : firmware ≠ none ∧ name ≠ "" ∧
        c.firmwareManager.activeName ≠ "" ∧ c.firmwareManager.activeName ≠ name := by
      simpa [Careful, not_or] using hc
    obtain ⟨f, rfl⟩ := Option.ne_none_iff_exists'.1 hf
    exact .inl (h.loadFirmware_breaks hname hne ha)
  | unloadFirmware => exact .inl (h.unloadFirmware_breaks hc)
  | reset =>
    obtain ⟨hr, hne⟩ : c.running ∧ c.firmwareManager.activeName ≠ "" := by
      simpa [Careful] using hc
    obtain ⟨f, hf⟩ := h.selected.exists_active hne
    exact .inr ⟨f, not_obeys_reset hr hf hE⟩
  | registerFirmware name firmware =>
    obtain ⟨hr, he, hname, hf⟩ : c.running ∧ c.firmwareManager.activeName = "" ∧ name ≠ "" ∧
        firmware ≠ none := by simpa [Careful, not_or] using hc
    obtain ⟨f, rfl⟩ := Option.ne_none_iff_exists'.1 hf
    exact .inl ⟨f, fun ho => h.registerFirmware_breaks hr hname he ho.2⟩
  | unregisterFirmware name =>
    simp only [Careful, Classical.not_imp] at hc
    exact .inl (h.unregisterFirmware_breaks hc.1 hc.2.1 hc.2.2)
  | setActiveFirmware name =>
    simp only [Careful, Classical.not_imp] at hc
    obtain ⟨f, hf⟩ := Option.isSome_iff_exists.1 hc.1
    exact .inl (h.setActiveFirmware_breaks hf hc.2)
  | start | stop | step | run _ | setPower _ => exact absurd trivial hc

end CPU

end Firmware

end EFS
