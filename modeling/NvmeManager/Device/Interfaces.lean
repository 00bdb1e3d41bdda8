import NvmeManager.Mi.Commands

/-!
# What a drive publishes

* `NvmeInterfaces` : the D-Bus properties of a drive;
* `LogEntry`, `createLogEntry` : the entries it sends to the logging service;
* `Fault` : the five fault properties, each with its bit of the SMART critical warning;
* `getDriveFormFactor`, `getManufacture`, `getMaxLinkSpeed`, `getCurrLinkSpeed`, `stripString` : how the properties are
  computed from what the drive and the inventory report.
-/

namespace NvmeManager

/-- The values of the build options. -/
structure Config where
  driveLocation : String
  driveSanitizeTime : UInt32
  identifyRspLength : UInt32
  drivePrefix : String

/-- Their defaults. -/
def Config.standard : Config where
  driveLocation := "/xyz/openbmc_project/inventory/system/chassis/Baseboard_0"
  driveSanitizeTime := 30
  identifyRspLength := 384
  drivePrefix := "NVMe_SSD_"

/-! ## Enumerations -/

inductive HealthType
  | ok
  | warning
  | critical
  deriving DecidableEq, Repr, Inhabited

/-- `OperationalStatus::StateType`, with one value for the states the program does not set. -/
inductive StateType
  | none
  | fault
  | other
  deriving DecidableEq, Repr, Inhabited

/-- `Progress::OperationStatus` -/
inductive OperationStatus
  | inProgress
  | completed
  | failed
  | aborted
  deriving DecidableEq, Repr, Inhabited

/-- `Operation::OperationType`, with one value for the operations the program does not set. -/
inductive OperationType
  | sanitize
  | other
  deriving DecidableEq, Repr, Inhabited

inductive EraseMethod
  | overwrite
  | blockErase
  | cryptoErase
  deriving DecidableEq, Repr, Inhabited

inductive DriveType
  | ssd
  | other
  deriving DecidableEq, Repr, Inhabited

inductive DriveProtocol
  | nvme
  | other
  deriving DecidableEq, Repr, Inhabited

inductive DriveFormFactor
  | drive3_5
  | drive2_5
  | edsff_1U_Long
  | edsff_1U_Short
  | edsff_E3_Short
  | edsff_E3_Long
  | m2_2230
  | m2_2242
  | m2_2260
  | m2_2280
  | m2_22110
  | u2
  | pcieSlotFullLength
  | pcieSlotLowProfile
  | pcieHalfLength
  | oem
  deriving DecidableEq, Repr, Inhabited

/-! ## Faults -/

/-- The fault properties, in the order in which a SMART read looks at them. -/
inductive Fault
  | backupDevice
  | capacity
  | temperature
  | degrades
  | media
  deriving DecidableEq, Repr

def NVME_SMART_CRIT_SPARE : UInt8 := 0x01
def NVME_SMART_CRIT_TEMPERATURE : UInt8 := 0x02
def NVME_SMART_CRIT_DEGRADED : UInt8 := 0x04
def NVME_SMART_CRIT_MEDIA : UInt8 := 0x08
def NVME_SMART_CRIT_VOLATILE_MEMORY : UInt8 := 0x10
def NVME_SMART_CRIT_PMR_RO : UInt8 := 0x20

namespace Fault

def bit : Fault → UInt8
  | backupDevice => NVME_SMART_CRIT_VOLATILE_MEMORY
  | capacity => NVME_SMART_CRIT_SPARE
  | temperature => NVME_SMART_CRIT_TEMPERATURE
  | degrades => NVME_SMART_CRIT_DEGRADED
  | media => NVME_SMART_CRIT_MEDIA

def all : List Fault := [backupDevice, capacity, temperature, degrades, media]

theorem mem_all (f : Fault) : f ∈ all := by cases f <;> decide

end Fault

/-! ## Properties -/

/-- An association: forward name, reverse name and object path. -/
abbrev Association := String × String × String

/-- The properties of the interfaces of a drive. A text that comes from the drive is a string of bytes. -/
structure NvmeInterfaces where
  present : Bool
  type : DriveType
  protocol : DriveProtocol
  formFactor : DriveFormFactor
  capacity : UInt64
  predictedMediaLifeLeftPercent : UInt8
  maxSpeed : UInt32
  currentSpeed : UInt32
  health : HealthType
  functional : Bool
  state : StateType
  manufacturer : String
  serialNumber : List UInt8
  model : List UInt8
  version : List UInt8
  /-- `backupDeviceFault`, `capacityFault`, `temperatureFault`, `degradesFault` and `mediaFault`. -/
  faults : Fault → Bool
  smartWarnings : String
  driveLifeUsed : String
  associations : List Association
  /-- `Progress::status` -/
  status : OperationStatus
  progress : UInt8
  sanitizeCapability : List EraseMethod
  operation : OperationType
  deriving Inhabited

/-! ## Log entries -/

/-- `Logging::server::Entry::Level` -/
inductive Level
  | warning
  | critical
  deriving DecidableEq, Repr

/-- The arguments of a call of `xyz.openbmc_project.Logging.Create`. -/
structure LogEntry where
  messageID : String
  severity : Level
  /-- `REDFISH_MESSAGE_ARGS` -/
  messageArgs : String
  /-- `REDFISH_ORIGIN_OF_CONDITION` -/
  originOfCondition : String
  resolution : String
  logNamespace : String
  deriving DecidableEq, Repr

def resourceErrorDetected : String := "ResourceEvent.1.0.ResourceErrorsDetected"

/-- Only the one message is recognised; an empty resolution is not sent, and reads as the empty text. -/
def createLogEntry (messageID : String) (level : Level) (arg0 arg1 resolution ooc : String) : List LogEntry :=
  if messageID = resourceErrorDetected then
    [⟨messageID, level, arg0 ++ "," ++ arg1, ooc, resolution, "StorageDevice"⟩]
  else
    []

def driveFailureResolution : String :=
  "Ensure all cables are properly and securely connected. Ensure all drives " ++
  "are fully seated. Replace the defective cables, drive, or both."

def drivePfaResolution : String :=
  "If this drive is not part of a fault-tolerant volume, first back up all " ++
  "data, then replace the drive and restore all data afterward. If this " ++
  "drive is part of a fault-tolerant volume, replace this drive as soon as " ++
  "possible as long as the health is OK"

def redfishDrivePathPrefix : String := "/redfish/v1/Systems/System_0/Storage/1/Drives/"
def redfishDriveName : String := "NVMe Drive"

/-! ## Texts -/

/-- The text behind the last occurrence of a character, or the whole text without one. -/
def afterLast (c : Char) (s : String) : String := String.ofList (s.toList.reverse.takeWhile (· ≠ c)).reverse

/-- `std::filesystem::path::filename` -/
def filename (path : String) : String := afterLast '/' path

/-- The bytes without the blanks at their end. -/
def stripString (src : List UInt8) : List UInt8 := (src.reverse.dropWhile (· = 0x20)).reverse

def formFactors : List (String × DriveFormFactor) :=
  [("Drive3_5", .drive3_5), ("Drive2_5", .drive2_5), ("EDSFF_1U_Long", .edsff_1U_Long),
    ("EDSFF_1U_Short", .edsff_1U_Short), ("EDSFF_E3_Short", .edsff_E3_Short), ("EDSFF_E3_Long", .edsff_E3_Long),
    ("M2_2230", .m2_2230), ("M2_2242", .m2_2242), ("M2_2260", .m2_2260), ("M2_2280", .m2_2280),
    ("M2_22110", .m2_22110), ("U2", .u2), ("PCIeSlotFullLength", .pcieSlotFullLength),
    ("PCIeSlotLowProfile", .pcieSlotLowProfile), ("PCIeHalfLength", .pcieHalfLength), ("OEM", .oem)]

def getDriveFormFactor (form : String) : DriveFormFactor := (formFactors.lookup form).getD .u2

def getManufacture (vid : UInt16) : String :=
  if vid = 0x144d then "Samsung"
  else if vid = 0x1344 then "Mircon"
  else if vid = 0x1e0f then "Kioxia"
  else "Unkown"

/-! ## Link speeds -/

/-- The loops over the bits `i`, `i - 1`, …, `0` : the base is halved until `found` holds. -/
def halveUntil (found : Nat → Bool) (i base : Nat) : Nat :=
  if found i then base
  else
    match i with
    | 0 => base / 2
    | i + 1 => halveUntil found i (base / 2)

/-- From 32 Gbs downwards. -/
def getMaxLinkSpeed (speed_vec lanes : UInt8) : UInt32 :=
  .ofNat (halveUntil (fun i => speed_vec.toNat.testBit i) 4 32 * lanes.toNat)

def getCurrLinkSpeed (speed lanes : UInt8) : UInt32 :=
  if speed = 0 then
    -- link not active
    0
  else
    .ofNat (halveUntil (fun i => speed.toNat - 1 = i) 4 32 * lanes.toNat)

/-! ## Identify data -/

def NVME_CTRL_SANICAP_CES : UInt32 := 0x1
def NVME_CTRL_SANICAP_BES : UInt32 := 0x2
def NVME_CTRL_SANICAP_OWS : UInt32 := 0x4

def sanitizeMethods (sanicap : UInt32) : List EraseMethod :=
  (if sanicap &&& NVME_CTRL_SANICAP_OWS ≠ 0 then [.overwrite] else []) ++
  (if sanicap &&& NVME_CTRL_SANICAP_BES ≠ 0 then [.blockErase] else []) ++
  (if sanicap &&& NVME_CTRL_SANICAP_CES ≠ 0 then [.cryptoErase] else [])

def bytesAt (data : List UInt8) (offset size : Nat) : List UInt8 :=
  (List.range size).map fun i => byteAt data (offset + i)

/-- The fields of `nvme_id_ctrl` that are read. -/
structure IdCtrl where
  vid : UInt16
  sn : List UInt8
  mn : List UInt8
  fr : List UInt8
  tnvmcap : UInt64
  sanicap : UInt32
  deriving DecidableEq, Repr

/-- What is behind the end of the data reads as zeros. The code reads past the buffer there: of data with fewer than 332
bytes this says nothing about the fields that are not in it. -/
def IdCtrl.parse (data : List UInt8) : IdCtrl where
  vid := u16At data 0
  sn := bytesAt data 4 20
  mn := bytesAt data 24 40
  fr := bytesAt data 64 8
  -- eight of its sixteen bytes
  tnvmcap := u64At data 280
  sanicap := u32At data 328

/-! ## Sanitize log -/

/-- The fields of `nvme_sanitize_log_page` that are read. -/
structure SanitizeLogPage where
  sstat : UInt16
  eto : UInt32
  etbe : UInt32
  etce : UInt32
  etond : UInt32
  etbend : UInt32
  etcend : UInt32
  deriving DecidableEq, Repr

def SanitizeLogPage.parse (data : List UInt8) : SanitizeLogPage where
  sstat := u16At data 2
  eto := u32At data 8
  etbe := u32At data 12
  etce := u32At data 16
  etond := u32At data 20
  etbend := u32At data 24
  etcend := u32At data 28

def NVME_SANITIZE_SSTAT_STATUS_MASK : UInt16 := 0x7
def NVME_SANITIZE_SSTAT_STATUS_COMPLETE_SUCCESS : UInt8 := 1
def NVME_SANITIZE_SSTAT_STATUS_IN_PROGESS : UInt8 := 2
def NVME_SANITIZE_SSTAT_STATUS_COMPLETED_FAILED : UInt8 := 3
def NVME_SANITIZE_SSTAT_STATUS_ND_COMPLETE_SUCCESS : UInt8 := 4

def SanitizeLogPage.res (log : SanitizeLogPage) : UInt8 := (log.sstat &&& NVME_SANITIZE_SSTAT_STATUS_MASK).toUInt8

end NvmeManager
