import NvmeManager.Device.View
import NvmeManager.Lib.SteadyTimer

/-!
# A drive and its requests

* `Command` : the requests that a drive makes, with the arguments that vary; `Command.request` fills in the others;
* `NVMeMi` : the interface of a drive: its endpoint, the requests that wait for the worker, and the callbacks that wait
  for the main loop, each with its reply; `NVMeMi.submit` and `NVMeMi.execute` are its two operations;
* `NVMeDevice` : a drive, and the functions of `NVMeDevice.cpp`; a callback is named for what has been read;
* `NVMeDevice.follow` : how a callback carries on: it makes the next request, arms the timer, or does neither;
  `handle_follow` : it does nothing else to the timer and the interface; `handle_frame` : the members that most callbacks
  leave alone;
* `NVMeDevice.replied` : what a callback writes in the view; `handle_view` : it writes nothing else there.
-/

namespace NvmeManager

/-! ## Requests -/

inductive Command
  | scan
  | identify (ctrl : Ctrl)
  | portInformation
  | health
  | smart (ctrl : Ctrl)
  | sanitizeLog (ctrl : Ctrl)
  | sanitize (ctrl : Ctrl) (type : EraseMethod) (overwritePasses : UInt16)
  deriving DecidableEq, Repr

namespace Command

def NVME_NSID_NONE : UInt32 := 0

/-- The call of the interface; the pass count is a byte there. -/
def request (cfg : Config) : Command → MiRequest
  | scan => .miScanCtrl
  | identify ctrl => .adminIdentify ctrl .ctrl NVME_NSID_NONE 0 cfg.identifyRspLength.toUInt16
  | portInformation => .miPCIePortInformation
  | health => .miSubsystemHealthStatusPoll
  | smart ctrl => .adminGetLogPage ctrl .smart 0xFFFFFFFF 0 0
  | sanitizeLog ctrl => .adminGetLogPage ctrl .sanitize 0 0 0
  | sanitize ctrl .overwrite passes => .adminSanitize ctrl .startOverwrite passes.toUInt8 (~~~0x04030201)
  | sanitize ctrl .cryptoErase _ => .adminSanitize ctrl .startCryptoErase 0 0
  | sanitize ctrl .blockErase _ => .adminSanitize ctrl .startBlockErase 0 0

/-- The controller handle that a request captures. -/
def ctrl? : Command → Option Ctrl
  | scan | portInformation | health => none
  | identify ctrl | smart ctrl | sanitizeLog ctrl | sanitize ctrl .. => some ctrl

/-- Every request of a drive tests the endpoint and then posts its closure to the worker. -/
theorem submit_request (cfg : Config) (c : Command) (nvmeEP : Bool) :
    (c.request cfg).submit nvmeEP =
      if !nvmeEP then .posted ⟨.no_such_device, (c.request cfg).noPayload⟩ else .worker (c.request cfg).task := by
  cases c with
  | sanitize ctrl type passes => cases type <;> rfl
  | _ => rfl

end Command

/-- A callback that has been posted to the main loop: its request, what it is run with, and how many commands had been
made on the endpoint by then. -/
structure Pending where
  command : Command
  reply : Reply
  madeAt : Nat

/-- The interface of a drive. -/
structure NVMeMi where
  nvmeEP : Option Endpoint
  /-- The requests of this drive in the queue of the worker, oldest first. -/
  worker : List Command
  /-- The callbacks of this drive in the queue of the main loop, oldest first. -/
  io : List Pending
  /-- The commands made on the endpoint so far, oldest first. -/
  made : List Made

namespace NVMeMi
variable (cfg : Config) (mi : NVMeMi)

/-- A request is made: without an endpoint its callback is posted at once. -/
def submit (c : Command) : NVMeMi :=
  match mi.nvmeEP with
  | none => { mi with io := mi.io ++ [⟨c, ⟨.no_such_device, (c.request cfg).noPayload⟩, mi.made.length⟩] }
  | some _ => { mi with worker := mi.worker ++ [c] }

def execute (lib : Libnvme) (errno : Int) : Option NVMeMi :=
  match mi.nvmeEP, mi.worker with
  | some ep, c :: rest =>
    let t := (c.request cfg).executed lib errno ep
    let made := mi.made ++ t.made
    some ⟨some t.ep, rest, mi.io ++ t.posted.map fun r => ⟨c, r, made.length⟩, made⟩
  | _, _ => none

variable {cfg mi}

@[simp] theorem nvmeEP_submit (c : Command) : (mi.submit cfg c).nvmeEP = mi.nvmeEP := by
  unfold submit
  split <;> simp_all

@[simp] theorem made_submit (c : Command) : (mi.submit cfg c).made = mi.made := by
  unfold submit
  split <;> rfl

theorem worker_submit {ep : Endpoint} (hep : mi.nvmeEP = some ep) (c : Command) :
    (mi.submit cfg c).worker = mi.worker ++ [c] := by
  unfold submit
  rw [hep]

theorem execute_eq_some {lib : Libnvme} {errno : Int} {mi' : NVMeMi} (h : mi.execute cfg lib errno = some mi') :
    ∃ ep c rest, mi.nvmeEP = some ep ∧ mi.worker = c :: rest ∧
      mi' = ⟨some ((c.request cfg).executed lib errno ep).ep, rest,
        mi.io ++ ((c.request cfg).executed lib errno ep).posted.map
          (⟨c, ·, (mi.made ++ ((c.request cfg).executed lib errno ep).made).length⟩),
        mi.made ++ ((c.request cfg).executed lib errno ep).made⟩ := by
  unfold execute at h
  split at h
  · next ep c rest hep hworker => exact ⟨ep, c, rest, hep, hworker, (Option.some.inj h).symm⟩
  · cases h

end NVMeMi

/-! ## The drive -/

structure NVMeDevice extends DriveView where
  scanTimer : SteadyTimer Unit
  ctrl : Ctrl
  presence : Bool
  eid : UInt8
  bus : UInt32
  retry : UInt8
  intf : NVMeMi

/-- The members that the constructor leaves uninitialised; the handle is of no scan. -/
structure Uninitialised where
  handle : Nat
  presence : Bool
  nodmmas : UInt32
  eraseType : EraseMethod
  estimatedTime : UInt32
  deriving Inhabited

/-- `NotAllowed` -/
inductive EraseError
  | NotAllowed
  deriving DecidableEq, Repr

namespace NVMeDevice
variable (cfg : Config)

/-- The constructor, over the properties that the interfaces start with. The endpoint is opened with a timeout, unless
it cannot be opened. -/
def create (props : NvmeInterfaces) (u : Uninitialised) (eid : UInt8) (bus : UInt32) (path : String)
    (timeout : Option Nat) : NVMeDevice :=
  let view : DriveView :=
    { props
      logs := []
      driveAssociation := ""
      driveFunctional := false
      smartWarning := 0xff
      driveIndex := filename path
      assocs := []
      inProgress := false
      objPath := path
      nodmmas := u.nodmmas
      eraseType := u.eraseType
      estimatedTime := u.estimatedTime
      errs := fun _ => false }
  -- assume the drive is good
  { view.markFunctional cfg true with
    scanTimer := .idle
    ctrl := ⟨0, u.handle⟩
    presence := u.presence
    eid
    bus
    retry := 1
    intf := ⟨timeout.map fun ms => ⟨0, [], ms⟩, [], [], []⟩ }

/-- The drive of endpoint 10 on bus 3, with the default options. -/
def first : NVMeDevice :=
  create .standard default default 10 3 "/xyz/openbmc_project/inventory/system/nvme/NVMe_SSD_10" (some 5000)

variable (d : NVMeDevice)

def call (c : Command) : NVMeDevice := { d with intf := d.intf.submit cfg c }

def pollDrive : NVMeDevice := { d with scanTimer := d.scanTimer.arm () }

def maxIdentifyCmdRetry : UInt8 := 3

def getDriveInfo : NVMeDevice := d.call cfg (.identify d.ctrl)

def getDriveLink : NVMeDevice := d.call cfg .portInformation

def initializeDrive : NVMeDevice :=
  { d with presence := false, props := { d.props with type := .ssd, protocol := .nvme } }.call cfg .scan

/-! ## Callbacks -/

/-- The callback of `initialize`. -/
def scanned (r : Reply) : NVMeDevice :=
  match r.ec.isError, r.payload.ctrlList.getLast? with
  | false, some ctrl =>
    { d with presence := true, props := { d.props with present := true }, ctrl }.getDriveInfo cfg
  | _, _ => { d with presence := false, props := { d.props with present := false } }

/-- The callback of `getDriveInfo`. -/
def identified (r : Reply) : NVMeDevice :=
  if r.ec.isError then
    if d.retry < maxIdentifyCmdRetry then
      { d with retry := d.retry + 1 }.getDriveInfo cfg
    else
      -- give up and move forward
      { d with retry := 0 }.getDriveLink cfg
  else
    { d with toDriveView := d.identifyUpdate r.payload.bytes }.getDriveLink cfg

/-- The callback of `getDriveLink`. -/
def linkRead (r : Reply) : NVMeDevice :=
  if r.ec.isError then
    d.pollDrive
  else
    { d with toDriveView := d.portUpdate r.payload.portInfo }.pollDrive

def healthPolled (r : Reply) : NVMeDevice :=
  if r.ec.isError then d else { d with toDriveView := d.healthUpdate cfg r.payload.healthStatus }

def smartRead (r : Reply) : NVMeDevice :=
  if r.ec.isError then
    d.pollDrive
  else
    { d with toDriveView := d.smartUpdate cfg r.payload.bytes }.pollDrive

/-- The callback of a sanitize log read; `none` where `updatePercent` has no value. -/
def sanitizeLogRead (r : Reply) : Option NVMeDevice :=
  if r.ec.isError then
    some d
  else
    let log := SanitizeLogPage.parse r.payload.bytes
    let v := d.sanitizeEnded log.res
    if log.res ≠ NVME_SANITIZE_SSTAT_STATUS_IN_PROGESS then
      some { d with toDriveView := v }.pollDrive
    else
      (v.updatePercent cfg (v.estimate log)).map fun v => { d with toDriveView := v }

/-- The callback of `erase`. -/
def sanitized (type : EraseMethod) (r : Reply) : NVMeDevice :=
  if r.ec.isError then
    { d with toDriveView := d.sanitizeFailed }
  else
    { d with toDriveView := d.updateSanitizeStatus type }

def handle (c : Command) (r : Reply) : Option NVMeDevice :=
  match c with
  | .scan => some (d.scanned cfg r)
  | .identify _ => some (d.identified cfg r)
  | .portInformation => some (d.linkRead r)
  | .health => some (d.healthPolled cfg r)
  | .smart _ => some (d.smartRead cfg r)
  | .sanitizeLog _ => d.sanitizeLogRead cfg r
  | .sanitize _ type _ => some (d.sanitized type r)

/-! ## Timer and clients -/

/-- The handler of `scanTimer`. -/
def tick : NVMeDevice :=
  -- try to re-initialize the drive
  if d.presence = false then
    d.initializeDrive cfg
  else if d.props.operation = .sanitize ∧ d.inProgress = true then
    -- no health polling during the sanitize process
    (d.call cfg (.sanitizeLog d.ctrl)).pollDrive
  else
    (d.call cfg .health).call cfg (.smart d.ctrl)

@[simp] theorem toDriveView_call {cfg : Config} {d : NVMeDevice} (c : Command) :
    (d.call cfg c).toDriveView = d.toDriveView := rfl

@[simp] theorem toDriveView_pollDrive {d : NVMeDevice} : d.pollDrive.toDriveView = d.toDriveView := rfl

/-- A tick writes nothing in the view, unless it initializes the drive. -/
theorem toDriveView_tick {cfg : Config} {d : NVMeDevice} : (d.tick cfg).toDriveView =
    if d.presence = false then (d.initializeDrive cfg).toDriveView else d.toDriveView := by
  unfold tick
  by_cases hpresence : d.presence = false
  · rw [if_pos hpresence, if_pos hpresence]
  · rw [if_neg hpresence, if_neg hpresence]
    split
    · rw [toDriveView_pollDrive, toDriveView_call]
    · rw [toDriveView_call, toDriveView_call]

/-- A method that is not supported is logged and ignored. -/
def erase (overwritePasses : UInt16) (type : EraseMethod) : Except EraseError NVMeDevice :=
  if d.inProgress then
    .error .NotAllowed
  else if type ∉ d.props.sanitizeCapability then
    .ok d
  else
    .ok (d.call cfg (.sanitize d.ctrl type overwritePasses))

/-- What `handleEmEndpoints` does with a drive for an inventory object on its bus: the form factor, and the association
unless it is empty. -/
def inventory (form driveAssoc : String) : NVMeDevice :=
  let v := d.updateFormFactor form
  if driveAssoc ≠ "" then
    { d with toDriveView := { v with driveAssociation := driveAssoc }.updateDriveAssociations }
  else
    { d with toDriveView := v }

/-! ## Inversion -/

section
variable {cfg} {d} {d' : NVMeDevice} {passes : UInt16} {type : EraseMethod} {form driveAssoc : String}

theorem erase_eq_error_iff : d.erase cfg passes type = .error .NotAllowed ↔ d.inProgress = true := by
  unfold erase
  refine ⟨fun h => ?_, fun h => if_pos h⟩
  by_contra hprogress
  rw [if_neg hprogress] at h
  split at h
  · cases h
  · cases h

theorem erase_eq_ok (h : d.erase cfg passes type = .ok d') : d.inProgress = false ∧
    (type ∉ d.props.sanitizeCapability ∧ d' = d ∨
      type ∈ d.props.sanitizeCapability ∧ d' = d.call cfg (.sanitize d.ctrl type passes)) := by
  unfold erase at h
  by_cases hprogress : d.inProgress = true
  · rw [if_pos hprogress] at h
    cases h
  · rw [if_neg hprogress] at h
    refine ⟨Bool.eq_false_iff.mpr hprogress, ?_⟩
    by_cases hcap : type ∈ d.props.sanitizeCapability
    · rw [if_neg (not_not_intro hcap)] at h
      exact .inr ⟨hcap, (Except.ok.inj h).symm⟩
    · rw [if_pos hcap] at h
      exact .inl ⟨hcap, (Except.ok.inj h).symm⟩

@[simp] theorem scanTimer_inventory : (d.inventory form driveAssoc).scanTimer = d.scanTimer := by
  unfold inventory
  split <;> rfl

@[simp] theorem ctrl_inventory : (d.inventory form driveAssoc).ctrl = d.ctrl := by
  unfold inventory
  split <;> rfl

@[simp] theorem intf_inventory : (d.inventory form driveAssoc).intf = d.intf := by
  unfold inventory
  split <;> rfl

end

/-- How a callback carries on. -/
inductive Follow
  | request (c : Command)
  | wait
  | nothing

namespace Follow

def timer (f : Follow) (t : SteadyTimer Unit) : SteadyTimer Unit :=
  match f with
  | wait => t.arm ()
  | request _ | nothing => t

def intf (f : Follow) (mi : NVMeMi) : NVMeMi :=
  match f with
  | request c => mi.submit cfg c
  | wait | nothing => mi

end Follow

def follow (c : Command) (r : Reply) : Follow :=
  match c with
  | .scan =>
    match r.ec.isError, r.payload.ctrlList.getLast? with
    | false, some ctrl => .request (.identify ctrl)
    | _, _ => .nothing
  | .identify _ =>
    .request (if r.ec.isError ∧ d.retry < maxIdentifyCmdRetry then .identify d.ctrl else .portInformation)
  | .portInformation | .smart _ => .wait
  | .sanitizeLog _ =>
    if r.ec.isError ∨ (SanitizeLogPage.parse r.payload.bytes).res = NVME_SANITIZE_SSTAT_STATUS_IN_PROGESS then .nothing
    else .wait
  | .health | .sanitize .. => .nothing

/-- A callback leaves the timer and the interface alone but for how it carries on. -/
theorem handle_follow {cfg : Config} {d d' : NVMeDevice} {c : Command} {r : Reply} (h : d.handle cfg c r = some d') :
    d'.scanTimer = (d.follow c r).timer d.scanTimer ∧ d'.intf = (d.follow c r).intf cfg d.intf := by
  unfold follow
  cases c with
  | scan =>
      obtain rfl := Option.some.inj h
      unfold scanned
      cases hec : r.ec.isError with
      | true => exact ⟨rfl, rfl⟩
      | false =>
          cases hlast : r.payload.ctrlList.getLast? with
          | none => exact ⟨rfl, rfl⟩
          | some ctrl => exact ⟨rfl, rfl⟩
  | identify ctrl =>
      obtain rfl := Option.some.inj h
      unfold identified
      by_cases herr : r.ec.isError = true
      · rw [if_pos herr]
        by_cases hretry : d.retry < maxIdentifyCmdRetry
        · rw [if_pos hretry, if_pos ⟨herr, hretry⟩]
          exact ⟨rfl, rfl⟩
        · rw [if_neg hretry, if_neg fun hboth => hretry hboth.2]
          exact ⟨rfl, rfl⟩
      · rw [if_neg herr, if_neg fun hboth => herr hboth.1]
        exact ⟨rfl, rfl⟩
  | portInformation =>
      obtain rfl := Option.some.inj h
      unfold linkRead
      split
      · exact ⟨rfl, rfl⟩
      · exact ⟨rfl, rfl⟩
  | health =>
      obtain rfl := Option.some.inj h
      unfold healthPolled
      split
      · exact ⟨rfl, rfl⟩
      · exact ⟨rfl, rfl⟩
  | smart ctrl =>
      obtain rfl := Option.some.inj h
      unfold smartRead
      split
      · exact ⟨rfl, rfl⟩
      · exact ⟨rfl, rfl⟩
  | sanitizeLog ctrl =>
      change d.sanitizeLogRead cfg r = some d' at h
      unfold sanitizeLogRead at h
      dsimp only at h ⊢
      by_cases herr : r.ec.isError = true
      · rw [if_pos herr] at h
        rw [if_pos (.inl herr)]
        obtain rfl := Option.some.inj h
        exact ⟨rfl, rfl⟩
      · rw [if_neg herr] at h
        by_cases hres : (SanitizeLogPage.parse r.payload.bytes).res = NVME_SANITIZE_SSTAT_STATUS_IN_PROGESS
        · rw [if_neg (not_not_intro hres)] at h
          rw [if_pos (.inr hres)]
          obtain ⟨v, _, rfl⟩ := Option.map_eq_some_iff.mp h
          exact ⟨rfl, rfl⟩
        · rw [if_pos hres] at h
          rw [if_neg (not_or_intro herr hres)]
          obtain rfl := Option.some.inj h
          exact ⟨rfl, rfl⟩
  | sanitize ctrl type passes =>
      obtain rfl := Option.some.inj h
      unfold sanitized
      split
      · exact ⟨rfl, rfl⟩
      · exact ⟨rfl, rfl⟩

/-- A callback leaves the handle, the presence and the count alone, unless it is that of a scan or of an identify. -/
theorem handle_frame {cfg : Config} {d d' : NVMeDevice} {c : Command} {r : Reply} (h : d.handle cfg c r = some d')
    (hscan : c ≠ .scan) (hidentify : ∀ ctrl, c ≠ .identify ctrl) :
    d'.ctrl = d.ctrl ∧ d'.presence = d.presence ∧ d'.retry = d.retry := by
  cases c with
  | scan => exact absurd rfl hscan
  | identify ctrl => exact absurd rfl (hidentify ctrl)
  | portInformation =>
      obtain rfl := Option.some.inj h
      unfold linkRead
      split
      · exact ⟨rfl, rfl, rfl⟩
      · exact ⟨rfl, rfl, rfl⟩
  | health =>
      obtain rfl := Option.some.inj h
      unfold healthPolled
      split
      · exact ⟨rfl, rfl, rfl⟩
      · exact ⟨rfl, rfl, rfl⟩
  | smart ctrl =>
      obtain rfl := Option.some.inj h
      unfold smartRead
      split
      · exact ⟨rfl, rfl, rfl⟩
      · exact ⟨rfl, rfl, rfl⟩
  | sanitizeLog ctrl =>
      change d.sanitizeLogRead cfg r = some d' at h
      unfold sanitizeLogRead at h
      dsimp only at h
      split at h
      · obtain rfl := Option.some.inj h
        exact ⟨rfl, rfl, rfl⟩
      · split at h
        · obtain rfl := Option.some.inj h
          exact ⟨rfl, rfl, rfl⟩
        · obtain ⟨v, _, rfl⟩ := Option.map_eq_some_iff.mp h
          exact ⟨rfl, rfl, rfl⟩
  | sanitize ctrl type passes =>
      obtain rfl := Option.some.inj h
      unfold sanitized
      split
      · exact ⟨rfl, rfl, rfl⟩
      · exact ⟨rfl, rfl, rfl⟩

/-- What the callback of a request writes in the view. -/
def replied (v : DriveView) (c : Command) (r : Reply) : Option DriveView :=
  match c with
  | .scan => some { v with props := { v.props with present := !r.ec.isError && !r.payload.ctrlList.isEmpty } }
  | .identify _ => some (if r.ec.isError then v else v.identifyUpdate r.payload.bytes)
  | .portInformation => some (if r.ec.isError then v else v.portUpdate r.payload.portInfo)
  | .health => some (if r.ec.isError then v else v.healthUpdate cfg r.payload.healthStatus)
  | .smart _ => some (if r.ec.isError then v else v.smartUpdate cfg r.payload.bytes)
  | .sanitizeLog _ =>
    let log := SanitizeLogPage.parse r.payload.bytes
    if r.ec.isError then some v
    else if log.res ≠ NVME_SANITIZE_SSTAT_STATUS_IN_PROGESS then some (v.sanitizeEnded log.res)
    else v.updatePercent cfg (v.estimate log)
  | .sanitize _ type _ => some (if r.ec.isError then v.sanitizeFailed else v.updateSanitizeStatus type)

theorem handle_view {cfg : Config} {d d' : NVMeDevice} {c : Command} {r : Reply} (h : d.handle cfg c r = some d') :
    replied cfg d.toDriveView c r = some d'.toDriveView := by
  cases c with
  | scan =>
      obtain rfl := Option.some.inj h
      unfold scanned replied
      cases hec : r.ec.isError with
      | true => rfl
      | false =>
          cases hlist : r.payload.ctrlList with
          | nil => rfl
          | cons ctrl rest =>
              rw [List.getLast?_cons]
              rfl
  | identify ctrl =>
      obtain rfl := Option.some.inj h
      unfold identified replied
      by_cases herr : r.ec.isError = true
      · simp only [if_pos herr]
        by_cases hretry : d.retry < maxIdentifyCmdRetry
        · rw [if_pos hretry]
          rfl
        · rw [if_neg hretry]
          rfl
      · simp only [if_neg herr]
        rfl
  | portInformation =>
      obtain rfl := Option.some.inj h
      unfold linkRead replied
      by_cases herr : r.ec.isError = true
      · simp only [if_pos herr]
        rfl
      · simp only [if_neg herr]
        rfl
  | health =>
      obtain rfl := Option.some.inj h
      unfold healthPolled replied
      by_cases herr : r.ec.isError = true
      · simp only [if_pos herr]
      · simp only [if_neg herr]
  | smart ctrl =>
      obtain rfl := Option.some.inj h
      unfold smartRead replied
      by_cases herr : r.ec.isError = true
      · simp only [if_pos herr]
        rfl
      · simp only [if_neg herr]
        rfl
  | sanitizeLog ctrl =>
      change d.sanitizeLogRead cfg r = some d' at h
      unfold sanitizeLogRead at h
      unfold replied
      dsimp only at h ⊢
      by_cases herr : r.ec.isError = true
      · rw [if_pos herr] at h ⊢
        obtain rfl := Option.some.inj h
        rfl
      · rw [if_neg herr] at h ⊢
        by_cases hres : (SanitizeLogPage.parse r.payload.bytes).res = NVME_SANITIZE_SSTAT_STATUS_IN_PROGESS
        · rw [if_neg (not_not_intro hres)] at h ⊢
          obtain ⟨v, hv, rfl⟩ := Option.map_eq_some_iff.mp h
          rw [hres] at hv
          exact hv
        · rw [if_pos hres] at h ⊢
          obtain rfl := Option.some.inj h
          rfl
  | sanitize ctrl type passes =>
      obtain rfl := Option.some.inj h
      unfold sanitized replied
      by_cases herr : r.ec.isError = true
      · simp only [if_pos herr]
      · simp only [if_neg herr]

end NVMeDevice
end NvmeManager
