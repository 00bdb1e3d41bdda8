import NvmeManager.Device.Interfaces

/-!
# The part of a drive that its replies update

* `DriveView` : the published properties of a drive, the log entries it has sent, and the members they are computed from;
* `markStatus`, `markFunctional`, `updateDriveAssociations` : the writers of the health and of the associations;
* `healthUpdate`, `smartUpdate`, `identifyUpdate`, `portUpdate`, `updatePercent`, `sanitizeEnded` : what the callback of a
  successful request writes.
-/

namespace NvmeManager

/-- The members of a drive that no request and no timer depends on, but for `inProgress`. -/
structure DriveView where
  props : NvmeInterfaces
  /-- The log entries sent so far, oldest first. -/
  logs : List LogEntry
  driveAssociation : String
  driveFunctional : Bool
  smartWarning : UInt8
  driveIndex : String
  assocs : List Association
  inProgress : Bool
  objPath : String
  nodmmas : UInt32
  eraseType : EraseMethod
  estimatedTime : UInt32
  /-- `backupDeviceErr`, `capacityErr`, `temperatureErr`, `degradesErr` and `mediaErr` : the faults a client has set. -/
  errs : Fault → Bool

namespace DriveView
variable (cfg : Config) (v : DriveView)

def log (entries : List LogEntry) : DriveView := { v with logs := v.logs ++ entries }

/-! ## Health and associations -/

def healthAssociation (status : String) : List Association :=
  if status = "critical" ∨ status = "warning" then [("health", status, v.objPath)] else []

def chassisAssociation : Association :=
  ("chassis", "drive", if v.driveAssociation ≠ "" then v.driveAssociation else cfg.driveLocation)

def markStatus (status : String) : DriveView :=
  let assocs := v.healthAssociation status ++ [v.chassisAssociation cfg]
  { v with
    assocs := assocs
    props :=
      { v.props with
        health := if status = "critical" then .critical else if status = "warning" then .warning else .ok
        associations := assocs } }

/-- The associations after the inventory has named another chassis; the health is read back from its property. -/
def updateDriveAssociations : DriveView :=
  let health :=
    match v.props.health with
    | .critical => v.healthAssociation "critical"
    | .warning => v.healthAssociation "warning"
    | .ok => []
  let assocs := health ++ [("chassis", "drive", v.driveAssociation)]
  { v with assocs := assocs, props := { v.props with associations := assocs } }

def updateFormFactor (form : String) : DriveView :=
  { v with props := { v.props with formFactor := getDriveFormFactor (afterLast '.' form) } }

/-- `createLogEntry` with the name and the path of the drive. -/
def resourceError (level : Level) (message resolution : String) : List LogEntry :=
  createLogEntry "ResourceEvent.1.0.ResourceErrorsDetected" level (redfishDriveName ++ v.driveIndex) message resolution
    (redfishDrivePathPrefix ++ v.driveIndex)

def markFunctional (functional : Bool) : DriveView :=
  let v' :=
    if v.driveFunctional ≠ functional then
      if functional = false then
        let u := { v with props := { v.props with functional := false, state := .fault } }.markStatus cfg "critical"
        u.log (u.resourceError .critical "Drive Failure" driveFailureResolution)
      else
        { v with props := { v.props with functional := true, state := .none } }.markStatus cfg "ok"
    else
      v
  { v' with driveFunctional := functional }

/-- The subsystem health status: the life used, and bit 5 of the status. -/
def healthUpdate (ss : HealthStatus) : DriveView :=
  let percentage := if ss.pdlu > 100 then 100 else ss.pdlu
  let u :=
    { v with
      props :=
        { v.props with
          driveLifeUsed := toString ss.pdlu.toNat
          predictedMediaLifeLeftPercent := 100 - percentage } }
  u.markFunctional cfg (ss.nss &&& 0x20 ≠ 0)

/-! ## SMART -/

/-- The warnings that are logged, in the order of the tests: the bit, the message and the resolution. -/
def smartEvents : List (UInt8 × String × String) :=
  [(NVME_SMART_CRIT_PMR_RO, "Persistent Memory Region has become read-only or unreliable", drivePfaResolution),
    (NVME_SMART_CRIT_VOLATILE_MEMORY, "volatile memory backup device has failed", drivePfaResolution),
    (NVME_SMART_CRIT_SPARE, "available spare capacity has fallen below the threshold", drivePfaResolution),
    (NVME_SMART_CRIT_DEGRADED, "NVM subsystem reliability has been degraded", drivePfaResolution),
    (NVME_SMART_CRIT_MEDIA, "all of the media has been placed in read only mode", drivePfaResolution),
    (NVME_SMART_CRIT_TEMPERATURE, "temperature is over or under the threshold",
      "Check the condition of the resource listed in OriginOfCondition")]

def generateRedfishEventbySmart (sw : UInt8) : DriveView :=
  v.log ((smartEvents.filter fun e => sw &&& e.1 ≠ 0).flatMap fun e => v.resourceError .warning e.2.1 e.2.2)

/-- The critical warning of the drive with the faults that a client has set. -/
def effectiveWarning (cw : UInt8) : UInt8 :=
  Fault.all.foldl (fun cw f => if v.errs f then cw ||| f.bit else cw) cw

def showWarning (cw : UInt8) : DriveView :=
  { v with
    props :=
      { v.props with
        faults := fun f => cw &&& f.bit ≠ 0
        smartWarnings := toString cw.toNat } }

/-- The SMART log: everything but `smartWarning` is left alone while the effective warning stays what it was. -/
def smartUpdate (smart : List UInt8) : DriveView :=
  let cw := v.effectiveWarning (byteAt smart 0)
  let v' :=
    if cw ≠ v.smartWarning then
      let u := v.showWarning cw
      let u := if cw ≠ 0 then u.markStatus cfg "warning" else u.markStatus cfg "ok"
      u.generateRedfishEventbySmart cw
    else
      v
  { v' with smartWarning := cw }

theorem smartUpdate_cases {cfg : Config} {v : DriveView} (smart : List UInt8) : v.smartUpdate cfg smart = v ∨
    ∃ (cw : UInt8) (status : String), v.smartUpdate cfg smart =
      { ((v.showWarning cw).markStatus cfg status).generateRedfishEventbySmart cw with smartWarning := cw } := by
  unfold smartUpdate
  dsimp only
  by_cases hsame : v.effectiveWarning (byteAt smart 0) = v.smartWarning
  · rw [if_neg (not_not_intro hsame), hsame]
    exact .inl rfl
  · rw [if_pos hsame]
    by_cases hzero : v.effectiveWarning (byteAt smart 0) = 0
    · rw [if_neg (not_not_intro hzero)]
      exact .inr ⟨_, "ok", rfl⟩
    · rw [if_pos hzero]
      exact .inr ⟨_, "warning", rfl⟩

/-- A client writes a fault property: the value is remembered, the published one stays. -/
def writeFault (f : Fault) (value : Bool) : DriveView := { v with errs := Function.update v.errs f value }

/-! ## Drive information -/

/-- `setNodmmas` takes eight bits. -/
def setNodmmas (value : UInt8) : DriveView := { v with nodmmas := value.toUInt32 &&& 0x80000000 }

def getNodmmas : Bool := v.nodmmas ≠ 0

def identifyUpdate (data : List UInt8) : DriveView :=
  let id := IdCtrl.parse data
  let u :=
    { v with
      props :=
        { v.props with
          manufacturer := getManufacture id.vid
          serialNumber := stripString id.sn
          model := stripString id.mn
          version := id.fr
          capacity := id.tnvmcap
          sanitizeCapability := sanitizeMethods id.sanicap } }
  u.setNodmmas id.sanicap.toUInt8

def portUpdate (port : PortInfo) : DriveView :=
  { v with
    props :=
      { v.props with
        maxSpeed := getMaxLinkSpeed port.sls port.mlw
        currentSpeed := getCurrLinkSpeed port.cls port.nlw } }

/-! ## Sanitize -/

def pollInterval : UInt8 := 5

/-- `none` where the division is by zero. -/
def updatePercent (endTime : UInt32) : Option DriveView :=
  let endTime := if endTime = 0xFFFFFFFF then cfg.driveSanitizeTime else endTime
  let time := v.estimatedTime + pollInterval.toUInt32
  if endTime = 0 then
    none
  else
    let percent := time * 100 / endTime
    let percent := if time ≥ endTime then 99 else percent
    some { v with props := { v.props with progress := percent.toUInt8 }, estimatedTime := time }

/-- A percentage of a sanitize that is running: it is never 100. -/
theorem updatePercent_eq_some {cfg : Config} {v v' : DriveView} {endTime : UInt32}
    (h : v.updatePercent cfg endTime = some v') : ∃ (percent : UInt8) (time : UInt32), percent.toNat < 100 ∧
      v' = { v with props := { v.props with progress := percent }, estimatedTime := time } := by
  unfold updatePercent at h
  dsimp only at h
  generalize (if endTime = 0xFFFFFFFF then cfg.driveSanitizeTime else endTime) = total at h
  generalize v.estimatedTime + pollInterval.toUInt32 = time at h
  by_cases hzero : total = 0
  · rw [if_pos hzero] at h
    cases h
  · rw [if_neg hzero] at h
    refine ⟨_, _, ?_, (Option.some.inj h).symm⟩
    by_cases hlate : time ≥ total
    · rw [if_pos hlate]
      decide
    · rw [if_neg hlate]
      have hlt : time.toNat < total.toNat := by
        rw [← UInt32.lt_iff_toNat_lt]
        exact UInt32.not_le.mp hlate
      -- the product may wrap around, which makes it smaller
      have hmod : (time * 100).toNat ≤ time.toNat * 100 := by
        rw [UInt32.toNat_mul]
        exact Nat.mod_le _ _
      have hdiv : (time * 100).toNat / total.toNat < 100 := by
        rw [Nat.div_lt_iff_lt_mul (by omega)]
        omega
      rw [UInt32.toNat_toUInt8, UInt32.toNat_div]
      exact Nat.lt_of_le_of_lt (Nat.mod_le _ _) hdiv

def updateSanitizeStatus (type : EraseMethod) : DriveView :=
  { v with
    estimatedTime := 0
    inProgress := true
    eraseType := type
    props := { v.props with status := .inProgress, operation := .sanitize } }

def sanitizeFailed : DriveView :=
  { v with inProgress := false, props := { v.props with status := .failed } }

def estimate (log : SanitizeLogPage) : UInt32 :=
  match v.eraseType with
  | .cryptoErase => if v.getNodmmas then log.etcend else log.etce
  | .blockErase => if v.getNodmmas then log.etbend else log.etbe
  | .overwrite => if v.getNodmmas then log.etond else log.eto

/-- A status that says how the sanitize ended. -/
def sanitizeEnded (res : UInt8) : DriveView :=
  if res = NVME_SANITIZE_SSTAT_STATUS_COMPLETE_SUCCESS ∨ res = NVME_SANITIZE_SSTAT_STATUS_ND_COMPLETE_SUCCESS then
    { v with inProgress := false, props := { v.props with status := .completed, progress := 100 } }
  else if res = NVME_SANITIZE_SSTAT_STATUS_COMPLETED_FAILED then
    { v with inProgress := false, props := { v.props with status := .failed, progress := 0 } }
  else
    v

end DriveView
end NvmeManager
