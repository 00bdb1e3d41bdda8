import NvmeManager.Lib.Run
import NvmeManager.Device.Drive

/-!
# Status polls

The part of a drive's life that decides what it shows of its health: successful polls, fault properties written by
clients, and inventory rounds.

* `faultBits`, `effectiveWarning_eq`, `effective_bit` : the effective warning byte is the byte of the drive with the bits
  of the faults that clients have set;
* `smartUpdate_same`, `smartUpdate_changed`, `markFunctional_same`, `markFunctional_changed` : the two writers that act on
  a change only;
* `StatusEvent`, `NVMeDevice.apply` : the events, and what they do to a drive;
* `Observer` : what an observer of the events knows; `Monitor` : a drive with its observer, and `Monitor.Step`;
* `Monitor.Remembers` : the drive remembers the effective warning of the latest SMART read, and `0xff` before the first;
  `remembers_of_step` : every event keeps it so.
-/

namespace NvmeManager

/-! ## The effective warning -/

def faultBits (injected : Fault → Bool) : UInt8 :=
  Fault.all.foldl (fun b f => if injected f then b ||| f.bit else b) 0

theorem foldl_or_bits (injected : Fault → Bool) (fs : List Fault) (cw b : UInt8) :
    fs.foldl (fun b f => if injected f then b ||| f.bit else b) (cw ||| b) =
      cw ||| fs.foldl (fun b f => if injected f then b ||| f.bit else b) b := by
  induction fs generalizing b with
  | nil => rfl
  | cons f fs ih =>
      rw [List.foldl_cons, List.foldl_cons]
      by_cases hf : injected f = true
      · rw [if_pos hf, if_pos hf, UInt8.or_assoc, ih]
      · rw [if_neg hf, if_neg hf, ih]

theorem and_or_distrib (a b m : UInt8) : (a ||| b) &&& m = (a &&& m) ||| (b &&& m) :=
  UInt8.toBitVec_inj.1 BitVec.and_or_distrib_right

/-- The bits of different faults do not meet. -/
theorem bit_and_bit (f g : Fault) : f.bit &&& g.bit = if f = g then f.bit else 0 := by
  cases f <;> cases g <;> decide

theorem bit_ne_zero (f : Fault) : f.bit ≠ 0 := by cases f <;> decide

theorem foldl_bits_and (injected : Fault → Bool) (fs : List Fault) (g : Fault) (b : UInt8) :
    fs.foldl (fun b f => if injected f then b ||| f.bit else b) b &&& g.bit ≠ 0 ↔
      b &&& g.bit ≠ 0 ∨ (g ∈ fs ∧ injected g = true) := by
  induction fs generalizing b with
  | nil => simp
  | cons f fs ih =>
      rw [List.foldl_cons, ih]
      by_cases hf : injected f = true
      · rw [if_pos hf, and_or_distrib, bit_and_bit]
        by_cases hfg : f = g
        · subst hfg
          simp [hf, bit_ne_zero]
        · simp [hfg, Ne.symm hfg]
      · rw [if_neg hf]
        by_cases hfg : f = g
        · subst hfg
          simp [hf]
        · simp [Ne.symm hfg]

/-- A fault shows in the effective warning if the drive reports it or a client has set it. -/
theorem effective_bit (injected : Fault → Bool) (cw : UInt8) (g : Fault) :
    (cw ||| faultBits injected) &&& g.bit ≠ 0 ↔ cw &&& g.bit ≠ 0 ∨ injected g = true := by
  have h := foldl_bits_and injected Fault.all g cw
  have heq := foldl_or_bits injected Fault.all cw 0
  rw [UInt8.or_zero] at heq
  rw [heq] at h
  rw [faultBits, h]
  simp [Fault.mem_all]

namespace DriveView
variable {cfg : Config} {v : DriveView}

theorem effectiveWarning_eq (cw : UInt8) : v.effectiveWarning cw = cw ||| faultBits v.errs := by
  have heq := foldl_or_bits v.errs Fault.all cw 0
  rwa [UInt8.or_zero] at heq

/-! ## The writers -/

theorem markFunctional_same : v.markFunctional cfg v.driveFunctional = v := by
  simp [markFunctional]

theorem markFunctional_changed {functional : Bool} (h : v.driveFunctional ≠ functional) :
    (v.markFunctional cfg functional).props.health = if functional then .ok else .critical := by
  unfold markFunctional
  rw [if_pos h]
  cases functional
  · rfl
  · rfl

theorem markFunctional_frame (functional : Bool) :
    (v.markFunctional cfg functional).smartWarning = v.smartWarning ∧
      (v.markFunctional cfg functional).errs = v.errs ∧
      (v.markFunctional cfg functional).props.faults = v.props.faults ∧
      (v.markFunctional cfg functional).props.smartWarnings = v.props.smartWarnings := by
  unfold markFunctional
  by_cases h : v.driveFunctional = functional
  · simp [h]
  · rw [if_pos h]
    cases functional
    · exact ⟨rfl, rfl, rfl, rfl⟩
    · exact ⟨rfl, rfl, rfl, rfl⟩

theorem healthUpdate_frame (ss : HealthStatus) :
    (v.healthUpdate cfg ss).smartWarning = v.smartWarning ∧
      (v.healthUpdate cfg ss).errs = v.errs ∧
      (v.healthUpdate cfg ss).props.faults = v.props.faults ∧
      (v.healthUpdate cfg ss).props.smartWarnings = v.props.smartWarnings :=
  markFunctional_frame _

theorem smartUpdate_same {smart : List UInt8} (h : v.effectiveWarning (byteAt smart 0) = v.smartWarning) :
    v.smartUpdate cfg smart = v := by
  unfold smartUpdate
  rw [h]
  simp

/-- What a SMART read shows when its effective warning is not the remembered one. -/
structure Shown (v v' : DriveView) (cw : UInt8) : Prop where
  faults : v'.props.faults = fun f => decide (cw &&& f.bit ≠ 0)
  smartWarnings : v'.props.smartWarnings = toString cw.toNat
  health : v'.props.health = if cw ≠ 0 then .warning else .ok
  driveFunctional : v'.driveFunctional = v.driveFunctional
  errs : v'.errs = v.errs

theorem smartUpdate_changed {smart : List UInt8} {cw : UInt8} (hcw : v.effectiveWarning (byteAt smart 0) = cw)
    (h : cw ≠ v.smartWarning) : Shown v (v.smartUpdate cfg smart) cw := by
  unfold smartUpdate
  rw [hcw]
  dsimp only
  rw [if_pos h]
  by_cases hzero : cw = 0
  · subst hzero
    exact ⟨rfl, rfl, rfl, rfl, rfl⟩
  · rw [if_pos hzero]
    exact ⟨rfl, rfl, (if_pos hzero).symm, rfl, rfl⟩

@[simp] theorem smartWarning_smartUpdate (smart : List UInt8) :
    (v.smartUpdate cfg smart).smartWarning = v.effectiveWarning (byteAt smart 0) := rfl

theorem driveFunctional_smartUpdate (smart : List UInt8) :
    (v.smartUpdate cfg smart).driveFunctional = v.driveFunctional := by
  by_cases h : v.effectiveWarning (byteAt smart 0) = v.smartWarning
  · rw [smartUpdate_same h]
  · exact (smartUpdate_changed rfl h).driveFunctional

theorem errs_smartUpdate (smart : List UInt8) : (v.smartUpdate cfg smart).errs = v.errs := by
  by_cases h : v.effectiveWarning (byteAt smart 0) = v.smartWarning
  · rw [smartUpdate_same h]
  · exact (smartUpdate_changed rfl h).errs

end DriveView

/-! ## Events -/

/-- What happens to a drive whose polls succeed. -/
inductive StatusEvent
  | health (ss : HealthStatus)
  | smart (log : List UInt8)
  | writeFault (f : Fault) (value : Bool)
  | inventory (form driveAssoc : String)
  deriving DecidableEq, Repr

/-- An event of a drive: the callback of a successful poll, a client's write, or an inventory round. -/
def NVMeDevice.apply (cfg : Config) (d : NVMeDevice) : StatusEvent → NVMeDevice
  | .health ss => d.healthPolled cfg ⟨.noError, .health ss⟩
  | .smart log => d.smartRead cfg ⟨.noError, .span log⟩
  | .writeFault f value => { d with toDriveView := d.toDriveView.writeFault f value }
  | .inventory form driveAssoc => d.inventory form driveAssoc

namespace NVMeDevice
variable {cfg : Config} {d : NVMeDevice}

@[simp] theorem view_apply_health (ss : HealthStatus) :
    (d.apply cfg (.health ss)).toDriveView = d.healthUpdate cfg ss := rfl

@[simp] theorem view_apply_smart (log : List UInt8) :
    (d.apply cfg (.smart log)).toDriveView = d.smartUpdate cfg log := rfl

theorem inventory_frame (form driveAssoc : String) :
    (d.inventory form driveAssoc).smartWarning = d.smartWarning ∧
      (d.inventory form driveAssoc).driveFunctional = d.driveFunctional ∧
      (d.inventory form driveAssoc).errs = d.errs ∧
      (d.inventory form driveAssoc).props.health = d.props.health ∧
      (d.inventory form driveAssoc).props.faults = d.props.faults ∧
      (d.inventory form driveAssoc).props.smartWarnings = d.props.smartWarnings := by
  unfold inventory DriveView.updateFormFactor DriveView.updateDriveAssociations
  by_cases h : driveAssoc = ""
  · simp [h]
  · simp [h]

end NVMeDevice

def HealthStatus.isFunctional (ss : HealthStatus) : Bool := ss.nss &&& 0x20 ≠ 0

/-- What an observer of the events knows. -/
structure Observer where
  /-- The values that clients have written last. -/
  injected : Fault → Bool
  /-- What the latest health poll said. -/
  functional : Option Bool
  /-- The warning byte of the latest SMART read, with the injected bits. -/
  warning : Option UInt8

namespace Observer

def init : Observer := ⟨fun _ => false, none, none⟩

/-- The warning byte of the drive with the injected bits. -/
def effective (o : Observer) (log : List UInt8) : UInt8 := byteAt log 0 ||| faultBits o.injected

def next (o : Observer) : StatusEvent → Observer
  | .health ss => { o with functional := some ss.isFunctional }
  | .smart log => { o with warning := some (o.effective log) }
  | .writeFault f value => { o with injected := Function.update o.injected f value }
  | .inventory .. => o

end Observer

/-- A drive and its observer. -/
structure Monitor where
  drive : NVMeDevice
  seen : Observer

namespace Monitor

/-- A drive that has just been created, and an observer who has seen nothing. -/
def start (cfg : Config) (props : NvmeInterfaces) (u : Uninitialised) (eid : UInt8) (bus : UInt32) (path : String)
    (timeout : Option Nat) : Monitor :=
  ⟨.create cfg props u eid bus path timeout, .init⟩

def first : Monitor := ⟨.first, .init⟩

def Step (cfg : Config) (m : Monitor) (e : StatusEvent) (m' : Monitor) : Prop :=
  m' = ⟨m.drive.apply cfg e, m.seen.next e⟩

/-! ## What the drive remembers -/

section
variable {cfg : Config} {m m' : Monitor} {e : StatusEvent}

/-- The drive remembers what has been seen. -/
structure Remembers (m : Monitor) : Prop where
  errs : m.drive.errs = m.seen.injected
  smartWarning : m.drive.smartWarning = m.seen.warning.getD 0xff

theorem remembers_start (props : NvmeInterfaces) (u : Uninitialised) (eid : UInt8) (bus : UInt32) (path : String)
    (timeout : Option Nat) : (start cfg props u eid bus path timeout).Remembers := ⟨rfl, rfl⟩

theorem Remembers.effectiveWarning (hr : m.Remembers) (log : List UInt8) :
    m.drive.effectiveWarning (byteAt log 0) = m.seen.effective log := by
  rw [DriveView.effectiveWarning_eq, hr.errs]
  rfl

theorem remembers_of_step (hr : m.Remembers) (h : m.Step cfg e m') : m'.Remembers := by
  obtain rfl := h
  cases e with
  | smart log =>
      refine ⟨?_, ?_⟩
      · rw [NVMeDevice.view_apply_smart, DriveView.errs_smartUpdate]
        exact hr.errs
      · rw [NVMeDevice.view_apply_smart, DriveView.smartWarning_smartUpdate, hr.effectiveWarning]
        rfl
  | health ss =>
      obtain ⟨hwarning, herrs, _, _⟩ :
          (m.drive.healthUpdate cfg ss).smartWarning = m.drive.smartWarning ∧ _ := DriveView.healthUpdate_frame ss
      exact ⟨herrs.trans hr.errs, hwarning.trans hr.smartWarning⟩
  | writeFault f value =>
      refine ⟨?_, hr.smartWarning⟩
      change Function.update m.drive.errs f value = Function.update m.seen.injected f value
      rw [hr.errs]
  | inventory form driveAssoc =>
      obtain ⟨hwarning, _, herrs, _, _, _⟩ := m.drive.inventory_frame form driveAssoc
      exact ⟨herrs.trans hr.errs, hwarning.trans hr.smartWarning⟩

end

end Monitor
end NvmeManager
