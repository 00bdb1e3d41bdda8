import NvmeManager.System.Process

/-!
# The associations of a drive

* `DriveView.healthEntry`, `DriveView.published` : the entry of a health, and the associations that a drive is to show;
* `DriveView.Associated` : it shows them; `associated_markStatus`, `associated_updateDriveAssociations` : both writers of
  the list see to it, `markStatus` with the health that it is given and the other one with the health that it reads;
* `Operation`, `NVMeDevice.operate` : what the main loop does with a drive, in any order;
* `associations_of_run` : a drive shows its associations after any operations; `Process.associated_of_run` : and so it does
  in the event loop.
-/

namespace NvmeManager

namespace DriveView
variable {cfg : Config} {v : DriveView}

def healthEntry (v : DriveView) : List Association :=
  match v.props.health with
  | .critical => [("health", "critical", v.objPath)]
  | .warning => [("health", "warning", v.objPath)]
  | .ok => []

/-- The health, and then the chassis: the one that the inventory has named, or else the configured one. -/
def published (cfg : Config) (v : DriveView) : List Association :=
  v.healthEntry ++ [("chassis", "drive", if v.driveAssociation ≠ "" then v.driveAssociation else cfg.driveLocation)]

/-- The list that is published is the one for the health that is published. -/
def Associated (cfg : Config) (v : DriveView) : Prop := v.props.associations = v.published cfg

/-! ## The two writers -/

theorem associated_markStatus (v : DriveView) (status : String) : (v.markStatus cfg status).Associated cfg := by
  unfold Associated published healthEntry markStatus healthAssociation chassisAssociation
  by_cases hcritical : status = "critical"
  · simp [hcritical]
  · by_cases hwarning : status = "warning"
    · simp [hwarning]
    · simp [hcritical, hwarning]

/-- It names no other chassis than the one of the drive, so there has to be one. -/
theorem associated_updateDriveAssociations (h : v.driveAssociation ≠ "") :
    v.updateDriveAssociations.Associated cfg := by
  have hassoc : v.updateDriveAssociations.driveAssociation ≠ "" := h
  unfold Associated published
  rw [if_pos hassoc]
  unfold healthEntry updateDriveAssociations
  cases hhealth : v.props.health with
  | ok => simp
  | warning => simp [healthAssociation]
  | critical => simp [healthAssociation]

/-! ## The other updates -/

theorem associated_markFunctional (h : v.Associated cfg) (functional : Bool) :
    (v.markFunctional cfg functional).Associated cfg := by
  unfold markFunctional
  by_cases hsame : v.driveFunctional = functional
  · rw [if_neg (not_not_intro hsame)]
    exact h
  · rw [if_pos hsame]
    cases functional with
    | false => exact associated_markStatus { v with props := _ } "critical"
    | true => exact associated_markStatus { v with props := _ } "ok"

theorem associated_healthUpdate (h : v.Associated cfg) (ss : HealthStatus) : (v.healthUpdate cfg ss).Associated cfg := by
  refine associated_markFunctional ?_ _
  exact h

theorem associated_smartUpdate (h : v.Associated cfg) (smart : List UInt8) : (v.smartUpdate cfg smart).Associated cfg := by
  rcases smartUpdate_cases smart with hsame | ⟨cw, status, hshown⟩
  · rwa [hsame]
  · rw [hshown]
    exact associated_markStatus (v.showWarning cw) status

theorem associated_sanitizeEnded (h : v.Associated cfg) (res : UInt8) : (v.sanitizeEnded res).Associated cfg := by
  unfold sanitizeEnded
  split
  · exact h
  · split
    · exact h
    · exact h

theorem associated_updatePercent {v' : DriveView} {endTime : UInt32} (h : v.Associated cfg)
    (hpercent : v.updatePercent cfg endTime = some v') : v'.Associated cfg := by
  obtain ⟨_, _, _, rfl⟩ := updatePercent_eq_some hpercent
  exact h

end DriveView

/-! ## Operations -/

/-- What the main loop does with a drive: the callback of a request is run, with any reply, an inventory round names its
form factor and its chassis, a client writes a fault property or asks for a sanitize, or the drive is polled. -/
inductive Operation
  | callback (c : Command) (r : Reply)
  | inventory (form driveAssoc : String)
  | writeFault (f : Fault) (value : Bool)
  | erase (overwritePasses : UInt16) (type : EraseMethod)
  | initializeDrive
  | tick
  deriving DecidableEq, Repr

namespace NVMeDevice
variable {cfg : Config} {d d' : NVMeDevice}

/-- `none` where the callback divides by zero, and where `erase` throws. -/
def operate (cfg : Config) (d : NVMeDevice) : Operation → Option NVMeDevice
  | .callback c r => d.handle cfg c r
  | .inventory form driveAssoc => some (d.inventory form driveAssoc)
  | .writeFault f value => some { d with toDriveView := d.toDriveView.writeFault f value }
  | .erase passes type => (d.erase cfg passes type).toOption
  | .initializeDrive => some (d.initializeDrive cfg)
  | .tick => some (d.tick cfg)

theorem associated_create (props : NvmeInterfaces) (u : Uninitialised) (eid : UInt8) (bus : UInt32) (path : String)
    (timeout : Option Nat) : (create cfg props u eid bus path timeout).Associated cfg :=
  DriveView.associated_markStatus _ "ok"

theorem associated_replied {v v' : DriveView} {c : Command} {r : Reply} (hv : v.Associated cfg)
    (h : replied cfg v c r = some v') : v'.Associated cfg := by
  cases c with
  | scan =>
      obtain rfl := Option.some.inj h
      exact hv
  | identify | portInformation | sanitize =>
      obtain rfl := Option.some.inj h
      split
      · exact hv
      · exact hv
  | health =>
      obtain rfl := Option.some.inj h
      split
      · exact hv
      · exact DriveView.associated_healthUpdate hv _
  | smart ctrl =>
      obtain rfl := Option.some.inj h
      split
      · exact hv
      · exact DriveView.associated_smartUpdate hv _
  | sanitizeLog ctrl =>
      unfold replied at h
      dsimp only at h
      split at h
      · obtain rfl := Option.some.inj h
        exact hv
      · split at h
        · obtain rfl := Option.some.inj h
          exact DriveView.associated_sanitizeEnded hv _
        · exact DriveView.associated_updatePercent hv h

theorem associated_handle {c : Command} {r : Reply} (hd : d.Associated cfg) (h : d.handle cfg c r = some d') :
    d'.Associated cfg :=
  associated_replied hd (handle_view h)

theorem associated_tick (hd : d.Associated cfg) : (d.tick cfg).Associated cfg := by
  rw [toDriveView_tick]
  split
  · exact hd
  · exact hd

theorem associated_inventory (hd : d.Associated cfg) (form driveAssoc : String) :
    (d.inventory form driveAssoc).Associated cfg := by
  unfold inventory
  by_cases hassoc : driveAssoc = ""
  · rw [if_neg (not_not_intro hassoc)]
    unfold DriveView.updateFormFactor
    exact hd
  · rw [if_pos hassoc]
    exact DriveView.associated_updateDriveAssociations hassoc

theorem associated_erase {passes : UInt16} {type : EraseMethod} (hd : d.Associated cfg)
    (h : d.erase cfg passes type = .ok d') : d'.Associated cfg := by
  obtain ⟨_, ⟨_, rfl⟩ | ⟨_, rfl⟩⟩ := erase_eq_ok h
  · exact hd
  · exact hd

theorem associated_operate {o : Operation} (hd : d.Associated cfg) (h : d.operate cfg o = some d') :
    d'.Associated cfg := by
  cases o with
  | callback c r => exact associated_handle hd h
  | inventory form driveAssoc =>
      obtain rfl := Option.some.inj h
      exact associated_inventory hd form driveAssoc
  | writeFault f value =>
      obtain rfl := Option.some.inj h
      exact hd
  | erase passes type =>
      change (d.erase cfg passes type).toOption = some d' at h
      cases herase : d.erase cfg passes type with
      | error _ =>
          rw [herase] at h
          cases h
      | ok u =>
          rw [herase] at h
          obtain rfl := Option.some.inj h
          exact associated_erase hd herase
  | initializeDrive =>
      obtain rfl := Option.some.inj h
      exact hd
  | tick =>
      obtain rfl := Option.some.inj h
      exact associated_tick hd

/-- **Associations.** After any operations, in any order, a drive publishes its health and its chassis, and nothing
else. -/
theorem associations_of_run {props : NvmeInterfaces} {u : Uninitialised} {eid : UInt8} {bus : UInt32} {path : String}
    {timeout : Option Nat} {os : List Operation}
    (hrun : Run (fun d o d' => operate cfg d o = some d') (create cfg props u eid bus path timeout) os d) :
    d.props.associations = d.healthEntry ++
      [("chassis", "drive", if d.driveAssociation ≠ "" then d.driveAssociation else cfg.driveLocation)] :=
  hrun.invariant (fun d => d.Associated cfg) (associated_create props u eid bus path timeout)
    fun _ _ _ hd h => associated_operate hd h

/-- The theorem at a drive that warns, that is then named a chassis, and whose health poll then fails. -/
theorem associations_of_run_warning : ∃ d, Run (fun d o d' => operate .standard d o = some d') first
    [.callback (.smart ⟨0, 7⟩) ⟨.noError, .span [1]⟩, .inventory "" "/chassis",
      .callback .health ⟨.no_such_device, .null⟩] d ∧
    d.props.associations = d.healthEntry ++
      [("chassis", "drive", if d.driveAssociation ≠ "" then d.driveAssociation else Config.standard.driveLocation)] := by
  obtain ⟨d, hrun⟩ : ∃ d, Run (fun d o d' => operate .standard d o = some d') first
      [.callback (.smart ⟨0, 7⟩) ⟨.noError, .span [1]⟩, .inventory "" "/chassis",
        .callback .health ⟨.no_such_device, .null⟩] d := ⟨_, Run.of_foldlM rfl⟩
  exact ⟨d, hrun, associations_of_run hrun⟩

end NVMeDevice

namespace Process
variable {cfg : Config} {p p' : Process} {e : Event}

theorem associated_of_turn (hp : p.drive.Associated cfg) (h : Turn cfg p e p') : p'.drive.Associated cfg := by
  cases h with
  | initializeDrive | writeFault | refused | expire | execute | abort => exact hp
  | inventory => exact NVMeDevice.associated_inventory hp _ _
  | erased herase => exact NVMeDevice.associated_erase hp herase
  | tick => exact NVMeDevice.associated_tick hp
  | deliver _ hhandle =>
      refine NVMeDevice.associated_handle ?_ hhandle
      exact hp

theorem associated_of_run {props : NvmeInterfaces} {u : Uninitialised} {eid : UInt8} {bus : UInt32} {path : String}
    {timeout : Option Nat} {es : List Event} (hrun : Run (Step cfg) (start cfg props u eid bus path timeout) es p) :
    p.drive.Associated cfg :=
  hrun.invariant (fun p => p.drive.Associated cfg) (NVMeDevice.associated_create props u eid bus path timeout)
    fun _ _ _ hp h => associated_of_turn hp (turn_of_step h).2

end Process
end NvmeManager
