import EFS.Drivers.Operations
import EFS.LTS.Histories

/-!
# The direction of I2C transfers

`start` tells a slave device whether it is going to be read or written, and the controller keeps
that direction, but `writeByte` and `readByte` do not look at it.

* `directed_iff` : the devices of a run are read and written as they were told iff every byte that
  reaches a device goes in the direction of the last `start`.
* `not_directed_writeAfterRead` : a device that was told that it is going to be read is written.

The calls of the devices are recorded next to what an operation does.  `start_congr`,
`writeByte_congr` and `readByte_congr` say that the answer of no other device matters.
-/

namespace EFS

namespace Drivers

open EFS.Mmio

/-- Calls of a slave device. -/
inductive DeviceCall (D : Type)
  | onStart (device : D) (isRead ack : Bool)
  | onWrite (device : D) (byte : UInt8)
  | onRead (device : D)
  | onStop (device : D)
  deriving DecidableEq

namespace DeviceCall

variable {D : Type}

/-- The call begins or ends a transaction. -/
def Bounds : DeviceCall D → Prop
  | .onStart _ _ _ | .onStop _ => True
  | .onWrite _ _ | .onRead _ => False

/-- A device is written, or read, while the last transaction is one in that direction with it. -/
def Expected (before : List (DeviceCall D)) : DeviceCall D → Prop
  | .onWrite device _ => Since (.onStart device false true) Bounds before
  | .onRead device => Since (.onStart device true true) Bounds before
  | .onStart _ _ _ | .onStop _ => True

/-- The direction of every transaction is respected. -/
def Directed (history : List (DeviceCall D)) : Prop := Permitted Expected history

end DeviceCall

namespace I2CController

variable {D : Type} (c : I2CController D)

/-! ### Calls of the devices -/

/-- The calls of `start`. -/
def startCalls (address : D → UInt8) (onStart : D → Bool → Bool) (isRead : Bool) :
    List (DeviceCall D) :=
  if ¬ c.enabled then []
  else
    match c.devices.find? fun d => address d = c.slaveAddress with
    | some d => [.onStart d isRead (onStart d isRead)]
    | none => []

/-- The calls of `stop`. -/
def stopCalls : List (DeviceCall D) :=
  match c.activeDevice with
  | some d => [.onStop d]
  | none => []

/-- The calls of `writeByte`. -/
def writeByteCalls (byte : UInt8) : List (DeviceCall D) :=
  if ¬ c.enabled then []
  else if ¬ c.busy then []
  else
    match c.activeDevice with
    | some d => [.onWrite d byte]
    | none => []

/-- The calls of `readByte`. -/
def readByteCalls : List (DeviceCall D) :=
  if ¬ c.enabled then []
  else
    match c.rxBuffer with
    | _ :: _ => []
    | [] =>
      match c.activeDevice with
      | none => []
      | some d => if ¬ c.busy then [] else [.onRead d]

/-- The calls of device methods that an operation makes. -/
def calls : Op D → List (DeviceCall D)
  | .start address onStart isRead => c.startCalls address onStart isRead
  | .stop => c.stopCalls
  | .writeByte _ byte => c.writeByteCalls byte
  | .readByte _ => c.readByteCalls
  | .enable | .disable | .setSlaveAddress _ | .attachDevice _ | .detachDevice _ | .reset => []

/-- `start` asks no device but the one in its calls. -/
theorem start_congr {address : D → UInt8} {onStart onStart' : D → Bool → Bool} {isRead : Bool}
    (h : ∀ d ack, .onStart d isRead ack ∈ c.startCalls address onStart isRead →
      onStart' d isRead = ack) :
    c.start address onStart' isRead = c.start address onStart isRead := by
  by_cases he : ¬ c.enabled
  · rw [start, start, if_pos he, if_pos he]
  · rw [start, start, if_neg he, if_neg he]
    have hslave : ({ c with busy := true, isReadMode := isRead } : I2CController D).slaveAddress =
        c.slaveAddress := rfl
    dsimp only
    rw [hslave]
    cases hd : c.devices.find? fun d => address d = c.slaveAddress with
    | none => rfl
    | some d =>
      have hack := h d (onStart d isRead) (by rw [startCalls, if_neg he, hd]; exact .head _)
      dsimp only
      rw [hack]

/-- `writeByte` writes no device but the one in its calls. -/
theorem writeByte_congr {onWrite onWrite' : D → UInt8 → Bool} {byte : UInt8}
    (h : ∀ d, .onWrite d byte ∈ c.writeByteCalls byte → onWrite' d byte = onWrite d byte) :
    c.writeByte onWrite' byte = c.writeByte onWrite byte := by
  by_cases he : ¬ c.enabled
  · rw [writeByte, writeByte, if_pos he, if_pos he]
  by_cases hb : ¬ c.busy
  · rw [writeByte, writeByte, if_neg he, if_pos hb, if_neg he, if_pos hb]
  rw [writeByte, writeByte, if_neg he, if_neg hb, if_neg he, if_neg hb]
  cases hactive : c.activeDevice with
  | none => rfl
  | some d =>
    have hack := h d (by rw [writeByteCalls, if_neg he, if_neg hb, hactive]; exact .head _)
    dsimp only
    rw [hack]

/-- `readByte` reads no device but the one in its calls. -/
theorem readByte_congr {onRead onRead' : D → UInt8}
    (h : ∀ d, .onRead d ∈ c.readByteCalls → onRead' d = onRead d) :
    c.readByte onRead' = c.readByte onRead := by
  by_cases he : ¬ c.enabled
  · rw [readByte, readByte, if_pos he, if_pos he]
  rw [readByte, readByte, if_neg he, if_neg he]
  cases hbuffer : c.rxBuffer with
  | cons byte rest => rfl
  | nil =>
    cases hactive : c.activeDevice with
    | none => rfl
    | some d =>
      dsimp only
      by_cases hb : ¬ c.busy
      · rw [if_pos hb, if_pos hb]
      · rw [if_neg hb, if_neg hb, h d]
        rw [readByteCalls, if_neg he, hbuffer, hactive]
        dsimp only
        rw [if_neg hb]
        exact .head _

/-- A byte that reaches a device goes in the direction of the transaction. -/
def InDirection : Op D → Prop
  | .writeByte _ _ => c.enabled → c.busy → c.activeDevice ≠ none → c.isReadMode = false
  | .readByte _ =>
    c.enabled → c.rxBuffer = [] → c.busy → c.activeDevice ≠ none → c.isReadMode = true
  | _ => True

/-- A controller and the calls that its devices have received. -/
structure Traced (D : Type) where
  controller : I2CController D
  history : List (DeviceCall D)

/-- The runs of a controller. -/
def machine (D : Type) [DecidableEq D] : LTS (Traced D) (Op D) where
  step s op t :=
    t = ⟨s.controller.perform op, s.history ++ s.controller.calls op⟩

variable {c} {history : List (DeviceCall D)} {op : Op D}

/-! ### What the controller knows of the last transaction -/

/-- The active device has acknowledged the last `start`, in the direction that is kept. -/
def Tracks (c : I2CController D) (history : List (DeviceCall D)) : Prop :=
  ∀ d, c.activeDevice = some d → Since (.onStart d c.isReadMode true) DeviceCall.Bounds history

theorem Tracks.of_inactive (h : c.activeDevice = none) : c.Tracks history := by
  intro d hd
  rw [h] at hd
  cases hd

theorem Tracks.append {c' : I2CController D} {calls : List (DeviceCall D)} (h : c.Tracks history)
    (hactive : c'.activeDevice = c.activeDevice) (hmode : c'.isReadMode = c.isReadMode)
    (hcalls : ∀ call ∈ calls, ¬ call.Bounds) : c'.Tracks (history ++ calls) := by
  intro d hd
  rw [hmode]
  exact (h d (hactive ▸ hd)).append hcalls

theorem Tracks.since_iff (h : c.Tracks history) {d : D} (hactive : c.activeDevice = some d)
    (isRead : Bool) :
    Since (.onStart d isRead true) DeviceCall.Bounds history ↔ c.isReadMode = isRead := by
  constructor
  · intro hsince
    have heq := (h d hactive).unique hsince trivial trivial
    injection heq
  · rintro rfl
    exact h d hactive

/-! ### One operation -/

/-- Whether a byte that is written reaches a device. -/
theorem writeByteCalls_cases (c : I2CController D) (byte : UInt8) :
    (∃ d, c.enabled = true ∧ c.busy = true ∧ c.activeDevice = some d ∧
        c.writeByteCalls byte = [.onWrite d byte]) ∨
      ¬ (c.enabled = true ∧ c.busy = true ∧ c.activeDevice ≠ none) ∧
        c.writeByteCalls byte = [] := by
  unfold writeByteCalls
  by_cases henabled : c.enabled = true
  · rw [if_neg (not_not.2 henabled)]
    by_cases hbusy : c.busy = true
    · rw [if_neg (not_not.2 hbusy)]
      cases hactive : c.activeDevice with
      | none => exact .inr ⟨fun h => h.2.2 rfl, rfl⟩
      | some d => exact .inl ⟨d, henabled, hbusy, rfl, rfl⟩
    · rw [if_pos hbusy]
      exact .inr ⟨fun h => hbusy h.2.1, rfl⟩
  · rw [if_pos henabled]
    exact .inr ⟨fun h => henabled h.1, rfl⟩

/-- Whether a byte is read from a device. -/
theorem readByteCalls_cases (c : I2CController D) :
    (∃ d, c.enabled = true ∧ c.rxBuffer = [] ∧ c.busy = true ∧ c.activeDevice = some d ∧
        c.readByteCalls = [.onRead d]) ∨
      ¬ (c.enabled = true ∧ c.rxBuffer = [] ∧ c.busy = true ∧ c.activeDevice ≠ none) ∧
        c.readByteCalls = [] := by
  unfold readByteCalls
  by_cases henabled : c.enabled = true
  · rw [if_neg (not_not.2 henabled)]
    cases hempty : c.rxBuffer with
    | cons byte rest =>
      -- a byte is buffered, and no device is asked for one
      exact .inr ⟨fun h => absurd h.2.1 (List.cons_ne_nil byte rest), rfl⟩
    | nil =>
      cases hactive : c.activeDevice with
      | none => exact .inr ⟨fun h => h.2.2.2 rfl, rfl⟩
      | some d =>
        dsimp only
        by_cases hbusy : c.busy = true
        · rw [if_neg (not_not.2 hbusy)]
          exact .inl ⟨d, henabled, rfl, hbusy, rfl, rfl⟩
        · rw [if_pos hbusy]
          exact .inr ⟨fun h => hbusy h.2.2.1, rfl⟩
  · rw [if_pos henabled]
    exact .inr ⟨fun h => henabled h.1, rfl⟩

theorem Tracks.directed_writeByte (h : c.Tracks history) (onWrite : D → UInt8 → Bool)
    (byte : UInt8) : DeviceCall.Directed (history ++ c.writeByteCalls byte) ↔
      DeviceCall.Directed history ∧ c.InDirection (.writeByte onWrite byte) := by
  rcases c.writeByteCalls_cases byte with ⟨d, henabled, hbusy, hactive, hcalls⟩ | ⟨hreaches, hcalls⟩
  · rw [hcalls, DeviceCall.Directed, permitted_snoc]
    refine and_congr_right' ((h.since_iff hactive false).trans ?_)
    exact ⟨fun hmode _ _ _ => hmode, fun hin => hin henabled hbusy (by simp [hactive])⟩
  · rw [hcalls, List.append_nil]
    refine (and_iff_left ?_).symm
    intro henabled hbusy hne
    exact absurd ⟨henabled, hbusy, hne⟩ hreaches

theorem Tracks.directed_readByte (h : c.Tracks history) (onRead : D → UInt8) :
    DeviceCall.Directed (history ++ c.readByteCalls) ↔
      DeviceCall.Directed history ∧ c.InDirection (.readByte onRead) := by
  rcases c.readByteCalls_cases with
    ⟨d, henabled, hempty, hbusy, hactive, hcalls⟩ | ⟨hreaches, hcalls⟩
  · rw [hcalls, DeviceCall.Directed, permitted_snoc]
    refine and_congr_right' ((h.since_iff hactive true).trans ?_)
    exact ⟨fun hmode _ _ _ _ => hmode, fun hin => hin henabled hempty hbusy (by simp [hactive])⟩
  · rw [hcalls, List.append_nil]
    refine (and_iff_left ?_).symm
    intro henabled hempty hbusy hne
    exact absurd ⟨henabled, hempty, hbusy, hne⟩ hreaches

variable [DecidableEq D]

/-- `start` throws, finds no device, or asks one. -/
theorem start_cases (c : I2CController D) (address : D → UInt8) (onStart : D → Bool → Bool)
    (isRead : Bool) :
    let c' := c.perform (.start address onStart isRead)
    let calls := c.startCalls address onStart isRead
    (c' = c ∧ calls = []) ∨ (c'.activeDevice = none ∧ calls = []) ∨
      c'.isReadMode = isRead ∧ ∃ d, calls = [.onStart d isRead (onStart d isRead)] ∧
        c'.activeDevice = if onStart d isRead then some d else none := by
  have haddress : { c with busy := true, isReadMode := isRead }.slaveAddress = c.slaveAddress := rfl
  simp only [perform, I2CController.start, startCalls, haddress]
  by_cases henabled : c.enabled = true
  · rw [if_neg (not_not.2 henabled), if_neg (not_not.2 henabled)]
    cases hfind : c.devices.find? fun d => address d = c.slaveAddress with
    | none => exact .inr (.inl ⟨rfl, rfl⟩)
    | some d => exact .inr (.inr ⟨rfl, d, rfl, rfl⟩)
  · rw [if_pos henabled, if_pos henabled]
    exact .inl ⟨rfl, rfl⟩

theorem Tracks.start (h : c.Tracks history) (address : D → UInt8) (onStart : D → Bool → Bool)
    (isRead : Bool) : (c.perform (.start address onStart isRead)).Tracks
      (history ++ c.startCalls address onStart isRead) := by
  rcases c.start_cases address onStart isRead with
    ⟨hsame, hcalls⟩ | ⟨hactive, -⟩ | ⟨hmode, d, hcalls, hactive⟩
  · rw [hsame, hcalls, List.append_nil]
    exact h
  · exact .of_inactive hactive
  · -- the device is active only if it has acknowledged
    intro d' hd'
    rw [hactive] at hd'
    split_ifs at hd' with hack
    obtain rfl := Option.some.inj hd'
    rw [hcalls, hmode, hack]
    exact since_snoc.2 (.inl rfl)

theorem transaction_writeByte (c : I2CController D) (onWrite : D → UInt8 → Bool) (byte : UInt8) :
    (c.perform (.writeByte onWrite byte)).activeDevice = c.activeDevice ∧
      (c.perform (.writeByte onWrite byte)).isReadMode = c.isReadMode := by
  simp only [perform, I2CController.writeByte]
  split_ifs
  · exact ⟨rfl, rfl⟩
  · exact ⟨rfl, rfl⟩
  · exact ⟨rfl, rfl⟩

theorem transaction_readByte (c : I2CController D) (onRead : D → UInt8) :
    (c.perform (.readByte onRead)).activeDevice = c.activeDevice ∧
      (c.perform (.readByte onRead)).isReadMode = c.isReadMode := by
  simp only [perform, I2CController.readByte]
  by_cases henabled : c.enabled = true
  · rw [if_neg (not_not.2 henabled)]
    cases c.rxBuffer with
    | cons byte rest => exact ⟨rfl, rfl⟩
    | nil =>
      cases hactive : c.activeDevice with
      | none => exact ⟨hactive, rfl⟩
      | some d =>
        dsimp only
        split_ifs
        · exact ⟨rfl, rfl⟩
        · exact ⟨hactive, rfl⟩
  · rw [if_pos henabled]
    exact ⟨rfl, rfl⟩

theorem transaction_attachDevice (c : I2CController D) (device : Option D) :
    (c.attachDevice device).activeDevice = c.activeDevice ∧
      (c.attachDevice device).isReadMode = c.isReadMode := by
  cases device with
  | none => exact ⟨rfl, rfl⟩
  | some d =>
    unfold attachDevice
    dsimp only
    split_ifs <;> exact ⟨rfl, rfl⟩

/-- The controller keeps track of the last transaction. -/
theorem Tracks.perform (h : c.Tracks history) (op : Op D) :
    (c.perform op).Tracks (history ++ c.calls op) := by
  cases op with
  | start address onStart isRead => exact h.start address onStart isRead
  | writeByte onWrite byte =>
    obtain ⟨hactive, hmode⟩ := c.transaction_writeByte onWrite byte
    refine h.append hactive hmode ?_
    rcases c.writeByteCalls_cases byte with ⟨d, -, -, -, hcalls⟩ | ⟨-, hcalls⟩ <;>
      simp [calls, hcalls, DeviceCall.Bounds]
  | readByte onRead =>
    obtain ⟨hactive, hmode⟩ := c.transaction_readByte onRead
    refine h.append hactive hmode ?_
    rcases c.readByteCalls_cases with ⟨d, -, -, -, -, hcalls⟩ | ⟨-, hcalls⟩ <;>
      simp [calls, hcalls, DeviceCall.Bounds]
  | stop | disable | reset => exact .of_inactive rfl
  | enable | setSlaveAddress address => exact h.append rfl rfl (by simp [calls])
  | attachDevice device =>
    obtain ⟨hactive, hmode⟩ := c.transaction_attachDevice device
    exact h.append hactive hmode (by simp [calls])
  | detachDevice device =>
    cases device with
    | none => exact h.append rfl rfl (by simp [calls])
    | some d =>
      -- without its device the transaction is over, though `onStop` is not called
      by_cases hd : c.activeDevice = some d
      · exact .of_inactive (if_pos hd)
      · exact h.append (if_neg hd) rfl (by simp [calls])

/-- **Step lemma.**  The direction is respected by an operation iff that is in the direction. -/
theorem Tracks.directed_perform_iff (h : c.Tracks history) (op : Op D) :
    DeviceCall.Directed (history ++ c.calls op) ↔
      DeviceCall.Directed history ∧ c.InDirection op := by
  -- an operation that calls no device goes in no direction
  have hnone (hcalls : c.calls op = []) (hin : c.InDirection op) :
      DeviceCall.Directed (history ++ c.calls op) ↔
        DeviceCall.Directed history ∧ c.InDirection op := by
    rw [hcalls, List.append_nil]
    exact (and_iff_left hin).symm
  cases op with
  | writeByte onWrite byte => exact h.directed_writeByte onWrite byte
  | readByte onRead => exact h.directed_readByte onRead
  | start address onStart isRead =>
    rcases c.start_cases address onStart isRead with
      ⟨-, hcalls⟩ | ⟨-, hcalls⟩ | ⟨-, d, hcalls, -⟩
    · exact hnone hcalls trivial
    · exact hnone hcalls trivial
    · simp only [calls, hcalls]
      exact permitted_snoc
  | stop =>
    cases hactive : c.activeDevice with
    | none => exact hnone (by simp [calls, stopCalls, hactive]) trivial
    | some d =>
      have hcalls : c.calls .stop = [.onStop d] := by simp [calls, stopCalls, hactive]
      rw [hcalls]
      exact permitted_snoc
  | enable | disable | setSlaveAddress _ | attachDevice _ | detachDevice _ | reset =>
    exact hnone rfl trivial

/-- **The direction of transfers.**  It is respected throughout a run iff every byte that reaches a
device goes in the direction of the last `start`. -/
theorem directed_iff (baseAddress : Address) (defaultSlaveAddress : UInt8) (ops : List (Op D)) :
    let s : Traced D := ⟨new baseAddress defaultSlaveAddress, []⟩
    (machine D).Throughout (fun s => DeviceCall.Directed s.history) s ops ↔
      (machine D).Allowed (fun s => s.controller.InDirection) s ops := by
  intro s
  have hnew : DeviceCall.Directed s.history ∧ s.controller.Tracks s.history :=
    ⟨permitted_nil, .of_inactive rfl⟩
  refine LTS.throughout_iff_allowed
    (I := fun s => DeviceCall.Directed s.history ∧ s.controller.Tracks s.history)
    (fun s op => ⟨_, rfl⟩) hnew (fun s h => h.1) ?_ ?_
  · rintro s op t ⟨hdirected, htracks⟩ rfl hin
    exact ⟨(htracks.directed_perform_iff op).2 ⟨hdirected, hin⟩, htracks.perform op⟩
  · rintro s op t ⟨-, htracks⟩ rfl hin hdirected
    exact hin ((htracks.directed_perform_iff op).1 hdirected).2

/-- A device that acknowledges a `start` for reading, and is then written. -/
def writeAfterRead : List (Op Unit) :=
  [.enable, .attachDevice (some ()), .start (fun _ => 0x50) (fun _ _ => true) true,
    .writeByte (fun _ _ => true) 7]

/-- It receives `onWrite` after `onStart(true)`. -/
theorem not_directed_writeAfterRead : ¬ (machine Unit).Throughout
    (fun s => DeviceCall.Directed s.history) ⟨new 0 0x50, []⟩ writeAfterRead := by
  intro h
  have hdirected := h writeAfterRead _ (List.prefix_refl _)
    (.cons rfl (.cons rfl (.cons rfl (.cons rfl (.nil _)))))
  have hsince : Since (.onStart () false true) DeviceCall.Bounds
      [DeviceCall.onStart () true true] :=
    hdirected [.onStart () true true] (.onWrite () 7) [] (by decide)
  have hread : Since (.onStart () true true) DeviceCall.Bounds [DeviceCall.onStart () true true] :=
    ⟨[], [], rfl, by simp⟩
  cases hsince.unique hread trivial trivial

end I2CController

end Drivers

end EFS
