import NvmeManager.Mi.Closure

/-!
# The requests of `NVMeMi`

* one closure per request: the one that the request posts, from the first libnvme command to the `io.post` of the
  callback;
* `NVMeMi.readLog` : the switch of `adminGetLogPage`, which yields the variable `rc` and the buffer `data`;
* `MiRequest` : a call of the interface with its arguments; `MiRequest.submit` : what the call does before it returns.
-/

namespace NvmeManager

namespace NVMeMi
open Closure

def maxNVMeMILength : Nat := 4096

def nvme_mi_xfer_size : Nat := 4096

/-- The three result classes of a command: the `errno` of a failed one, `bad_message` for a status of the drive, and
the payload of a successful one. `empty` is what the callback gets beside an error. -/
def reportResult (rc : Int) (empty : Payload) (success : Closure Payload) : Closure Unit :=
  if rc < 0 then do
    let last_errno ← errno
    ioPost ⟨.ofErrno last_errno, empty⟩
  else if rc > 0 then
    ioPost ⟨.bad_message, empty⟩
  else do
    let payload ← success
    ioPost ⟨.noError, payload⟩

/-! ## Management interface commands -/

/-- The loop over the ports `i ..= nump`, of which `left + 1` are left; it ends at a PCIe port. -/
def readPorts (left i : Nat) : Closure Unit := do
  let a ← nvme (.readMiDataPort i)
  if a.rc ≠ 0 then
    ioPost ⟨.bad_message, .null⟩
  else
    let port := a.out.port
    -- only select PCIe port
    if port.portt = 0x1 then
      ioPost ⟨.noError, .port port⟩
    else
      match left with
      | 0 => ioPost ⟨.noError, .port port⟩
      | left + 1 => readPorts left (i + 1)

def miPCIePortInformation : Closure Unit := do
  let a ← nvme .readMiDataSubsys
  if a.rc < 0 then
    let last_errno ← errno
    ioPost ⟨.ofErrno last_errno, .null⟩
  else if a.rc > 0 then
    ioPost ⟨.bad_message, .null⟩
  else
    let ss_info := a.out.ssInfo
    readPorts ss_info.nump.toNat 0

def miSubsystemHealthStatusPoll : Closure Unit := do
  let a ← nvme (.subsystemHealthStatusPoll true)
  reportResult a.rc .null (pure (.health a.out.health))

def miScanCtrl : Closure Unit := do
  let a ← nvme (.scanEp true)
  reportResult a.rc (.ctrls []) (do
    let list ← nvme_mi_for_each_ctrl
    pure (.ctrls list))

/-! ## Identify and sanitize -/

def adminIdentifyFull (ctrl : Ctrl) (cns : IdentifyCns) (nsid : UInt32) (cntid : UInt16) : Closure Unit := do
  let a ← nvme (.identify ctrl cns nsid cntid)
  reportResult a.rc (.span []) (pure (.span (a.fill NVME_IDENTIFY_DATA_SIZE (zeros NVME_IDENTIFY_DATA_SIZE))))

def identifyPartialSize (cns : IdentifyCns) (read_length : UInt16) : Nat :=
  match cns with
  | .secondaryCtrlList => sizeofSecondaryCtrlList
  | _ => read_length.toNat

def adminIdentifyPartial (ctrl : Ctrl) (cns : IdentifyCns) (nsid : UInt32) (cntid : UInt16)
    (read_length : UInt16) : Closure Unit := do
  let size := identifyPartialSize cns read_length
  let a ← nvme (.identifyPartial ctrl cns nsid cntid 0 size)
  reportResult a.rc (.span []) (pure (.span (a.fill size (zeros size))))

def adminIdentify (ctrl : Ctrl) (cns : IdentifyCns) (nsid : UInt32) (cntid : UInt16)
    (read_length : UInt16) : Closure Unit :=
  if read_length > 0 ∧ read_length.toNat < NVME_IDENTIFY_DATA_SIZE then
    adminIdentifyPartial ctrl cns nsid cntid read_length
  else
    adminIdentifyFull ctrl cns nsid cntid

/-- The result of the command is a 32-bit word, in a buffer of eight bytes. -/
def adminSanitize (ctrl : Ctrl) (sanact : Sanact) (owpass : UInt8) (owpattern : UInt32) : Closure Unit := do
  let a ← nvme (.sanitizeNvm ctrl sanact owpass true owpattern)
  reportResult a.rc (.span []) (pure (.span (a.fill 4 (zeros 8))))

/-! ## Log pages -/

/-- `NVME_LOG_TELEM_HOST_LSP_RETAIN` -/
def lspRetain : UInt8 := 0
/-- `NVME_LOG_TELEM_HOST_LSP_CREATE` -/
def lspCreate : UInt8 := 1

/-- `func` of `getTelemetryLog` : the read of the selected log. -/
def telemetryCall (ctrl : Ctrl) (host : Bool) (offset size : Nat) : NvmeCall :=
  if host then .getLogTelemetryHost ctrl offset size else .getLogTelemetryCtrl ctrl offset size

/-- The header gives the size of header and data areas 1, 2 and 3, which are then read whole. -/
def telemetrySize (log : List UInt8) : Nat := ((u16At log 12).toNat + 1) * NVME_LOG_TELEM_BLOCK_SIZE

/-- `getTelemetryLog` : the result and the buffer. -/
def getTelemetryLog (ctrl : Ctrl) (host create : Bool) : Closure (Int × List UInt8) := do
  let data := zeros sizeofTelemetryLog
  if host && create then
    let a ← nvme (.getLogCreateTelemetryHost ctrl)
    pure (a.rc, a.fill sizeofTelemetryLog data)
  else
    let a ← nvme (telemetryCall ctrl host 0 sizeofTelemetryLog)
    let log := a.fill sizeofTelemetryLog data
    if a.rc ≠ 0 then
      pure (a.rc, log)
    else
      let size := telemetrySize log
      let b ← nvme (telemetryCall ctrl host 0 size)
      pure (b.rc, b.fill size (resize log size))

/-- One read of a log page into a buffer of `room` bytes. -/
def readLogPage (a : Answer) (len room : Nat) : Int × List UInt8 := (a.rc, a.fill len (zeros room))

/-- The switch over the log identifier: the value of `rc` after it, and `data`. The cases of the reservation and of the
sanitize log declare an `rc` of their own, so the one tested after the switch is still zero. -/
def readLog (ctrl : Ctrl) (lid : LogLid) (nsid : UInt32) (lsp : UInt8) : Closure (Int × List UInt8) :=
  match lid with
  | .error => do
    let num := nvme_mi_xfer_size / sizeofErrorLogPage
    let a ← nvme (.getLogError ctrl num)
    pure (readLogPage a (num * sizeofErrorLogPage) nvme_mi_xfer_size)
  | .smart => do
    let read_len := sizeofSmartLog - sizeofSmartRsvd232
    let a ← nvme (.getNsidLog ctrl lid nsid read_len)
    pure (readLogPage a read_len sizeofSmartLog)
  | .fwSlot => do
    let a ← nvme (.getLogFwSlot ctrl)
    pure (readLogPage a sizeofFirmwareSlot sizeofFirmwareSlot)
  | .cmdEffects => do
    let a ← nvme (.getLogCmdEffects ctrl)
    pure (readLogPage a sizeofCmdEffectsLog sizeofCmdEffectsLog)
  | .deviceSelfTest => do
    let a ← nvme (.getLogDeviceSelfTest ctrl)
    pure (readLogPage a sizeofSelfTestLog sizeofSelfTestLog)
  | .changedNs => do
    let a ← nvme (.getLogChangedNsList ctrl)
    pure (readLogPage a sizeofNsList sizeofNsList)
  | .telemetryHost =>
    if lsp = lspCreate then
      getTelemetryLog ctrl true true
    else if lsp = lspRetain then
      getTelemetryLog ctrl true false
    else do
      setErrno 22
      pure (-1, [])
  | .telemetryCtrl => getTelemetryLog ctrl false false
  | .reservation => do
    let a ← nvme (.getLogReservation ctrl)
    pure (0, (readLogPage a sizeofResvNotificationLog sizeofResvNotificationLog).2)
  | .sanitize => do
    let a ← nvme (.getLogSanitize ctrl)
    pure (0, (readLogPage a sizeofSanitizeLogPage sizeofSanitizeLogPage).2)
  | .other _ => do
    setErrno 22
    pure (-1, [])

/-- The tests after the switch. The `return` of the second one is inside the posted callback, so a positive `rc` goes on
to post the callback a second time. -/
def adminGetLogPage (ctrl : Ctrl) (lid : LogLid) (nsid : UInt32) (lsp : UInt8) (_lsi : UInt16) : Closure Unit := do
  let log ← readLog ctrl lid nsid lsp
  let rc := log.1
  let data := log.2
  if rc < 0 then
    let last_errno ← errno
    ioPost ⟨.ofErrno last_errno, .span []⟩
  else
    if rc > 0 then
      ioPost ⟨.bad_message, .span []⟩
    ioPost ⟨.noError, .span data⟩

/-! ## Raw transfer, firmware commit and security -/

/-- `nvme_mi_admin_req_hdr::dlen` -/
def reqDlen (hdr : List UInt8) : Nat := (u32At hdr 32).toNat
/-- `nvme_mi_admin_req_hdr::doff` -/
def reqDoff (hdr : List UInt8) : Nat := (u32At hdr 28).toNat

/-- `req` is the request header followed by the payload, packed when the request is made. -/
def adminXfer (ctrl : Ctrl) (req : List UInt8) (timeout_ms : Nat) : Closure Unit := do
  let respDataSize := reqDlen req
  let respDataOffset := reqDoff req
  let buf := zeros (sizeofAdminRespHdr + respDataSize)
  let timeout ← nvme_mi_ep_get_timeout
  nvme_mi_ep_set_timeout timeout_ms
  let a ← nvme (.adminXfer ctrl req respDataOffset respDataSize)
  -- revert to previous timeout
  nvme_mi_ep_set_timeout timeout
  if a.rc < 0 then
    let last_errno ← errno
    ioPost ⟨.ofErrno last_errno, .response (zeros sizeofAdminRespHdr) []⟩
  else
    let resp := resize a.out.hdr sizeofAdminRespHdr ++ a.out.data
    let buf := resize (overlay resp buf) (sizeofAdminRespHdr + a.out.size)
    ioPost ⟨.noError, .response (buf.take sizeofAdminRespHdr) (buf.drop sizeofAdminRespHdr)⟩

/-- `nvme_status_field::NVME_SC_MASK`, the status beside an error. -/
def NVME_SC_MASK : Int := 0xff

/-- `NVME_SC_SUCCESS`, `NVME_SC_FW_NEEDS_CONV_RESET`, `NVME_SC_FW_NEEDS_SUBSYS_RESET` and `NVME_SC_FW_NEEDS_RESET` -/
def fwCommitDone : List Int := [0x0, 0x0b, 0x10, 0x11]

def adminFwCommit (ctrl : Ctrl) (action slot : UInt8) (bpid : Bool) : Closure Unit := do
  let a ← nvme (.fwCommit ctrl action slot bpid)
  if a.rc < 0 then
    let last_errno ← errno
    ioPost ⟨.ofErrno last_errno, .fwStatus NVME_SC_MASK⟩
  else if a.rc % 0x800 ∈ fwCommitDone then
    ioPost ⟨.noError, .fwStatus a.rc⟩
  else
    ioPost ⟨.bad_message, .fwStatus a.rc⟩

/-- The error code is made from `errno` whatever the status. -/
def adminSecuritySend (ctrl : Ctrl) (proto : UInt8) (proto_specific : UInt16) (data : List UInt8) : Closure Unit := do
  let a ← nvme (.securitySend ctrl proto (proto_specific &&& 0xff).toUInt8 (proto_specific >>> 8).toUInt8 data)
  let nvme_errno ← errno
  ioPost ⟨.ofErrno nvme_errno, .security a.rc⟩

def adminSecurityReceive (ctrl : Ctrl) (proto : UInt8) (proto_specific : UInt16) (transfer_length : UInt32) :
    Closure Unit := do
  let data := zeros transfer_length.toNat
  let a ← nvme (.securityRecv ctrl proto (proto_specific &&& 0xff).toUInt8 (proto_specific >>> 8).toUInt8 data.length)
  -- the arguments hold what was received only if the command succeeded
  let data_len := if a.rc = 0 then a.out.size else data.length
  if data_len > maxNVMeMILength then
    ioPost ⟨.protocol_error, .securityData (-1) []⟩
  else
    let nvme_errno ← errno
    ioPost ⟨.ofErrno nvme_errno, .securityData a.rc (resize (a.fill data.length data) data_len)⟩

end NVMeMi

/-! ## The interface -/

/-- A call of the `NVMeMi` interface; the callback is not an argument here, its runs are the replies. -/
inductive MiRequest
  | miPCIePortInformation
  | miSubsystemHealthStatusPoll
  | miScanCtrl
  | adminIdentify (ctrl : Ctrl) (cns : IdentifyCns) (nsid : UInt32) (cntid read_length : UInt16)
  | adminSanitize (ctrl : Ctrl) (sanact : Sanact) (owpass : UInt8) (owpattern : UInt32)
  | adminGetLogPage (ctrl : Ctrl) (lid : LogLid) (nsid : UInt32) (lsp : UInt8) (lsi : UInt16)
  | adminXfer (ctrl : Ctrl) (admin_req data : List UInt8) (timeout_ms : Nat)
  | adminFwCommit (ctrl : Ctrl) (action slot : UInt8) (bpid : Bool)
  | adminSecuritySend (ctrl : Ctrl) (proto : UInt8) (proto_specific : UInt16) (data : List UInt8)
  | adminSecurityReceive (ctrl : Ctrl) (proto : UInt8) (proto_specific : UInt16) (transfer_length : UInt32)
  deriving DecidableEq, Repr

/-- What a call of the interface does before it returns. -/
inductive Submission
  /-- It runs the callback itself. -/
  | called (r : Reply)
  /-- It posts the callback to the main loop. -/
  | posted (r : Reply)
  /-- It posts a closure to the worker thread. -/
  | worker (t : Closure Unit)
  /-- It posts a closure to the main loop. -/
  | loop (t : Closure Unit)

namespace MiRequest

/-- What the callback of a request gets beside an error. -/
def noPayload : MiRequest → Payload
  | miPCIePortInformation | miSubsystemHealthStatusPoll => .null
  | miScanCtrl => .ctrls []
  | adminIdentify .. | adminSanitize .. | adminGetLogPage .. => .span []
  | adminXfer .. => .response (zeros sizeofAdminRespHdr) []
  | adminFwCommit .. => .fwStatus NVMeMi.NVME_SC_MASK
  | adminSecuritySend .. => .security (-1)
  | adminSecurityReceive .. => .securityData (-1) []

def task : MiRequest → Closure Unit
  | miPCIePortInformation => NVMeMi.miPCIePortInformation
  | miSubsystemHealthStatusPoll => NVMeMi.miSubsystemHealthStatusPoll
  | miScanCtrl => NVMeMi.miScanCtrl
  | adminIdentify ctrl cns nsid cntid read_length => NVMeMi.adminIdentify ctrl cns nsid cntid read_length
  | adminSanitize ctrl sanact owpass owpattern => NVMeMi.adminSanitize ctrl sanact owpass owpattern
  | adminGetLogPage ctrl lid nsid lsp lsi => NVMeMi.adminGetLogPage ctrl lid nsid lsp lsi
  | adminXfer ctrl admin_req data timeout_ms => NVMeMi.adminXfer ctrl (admin_req ++ data) timeout_ms
  | adminFwCommit ctrl action slot bpid => NVMeMi.adminFwCommit ctrl action slot bpid
  | adminSecuritySend ctrl proto spec data => NVMeMi.adminSecuritySend ctrl proto spec data
  | adminSecurityReceive ctrl proto spec len => NVMeMi.adminSecurityReceive ctrl proto spec len

/-- The thread after the worker has executed a request, on an endpoint and an `errno` left by earlier ones. -/
def executed (r : MiRequest) (lib : Libnvme) (errno : Int) (ep : Endpoint) : Thread :=
  (r.task.exec lib (.start errno ep)).2

/-- The call, on an interface whose endpoint is valid or null, while the worker accepts posts. The security requests do
not test the endpoint; `adminFwCommit` posts to the main loop. -/
def submit (nvmeEP : Bool) (r : MiRequest) : Submission :=
  match r with
  | adminSecuritySend .. => .worker r.task
  | adminSecurityReceive _ _ _ transfer_length =>
    if transfer_length.toNat > NVMeMi.maxNVMeMILength then
      .called ⟨.invalid_argument, r.noPayload⟩
    else
      .worker r.task
  | adminFwCommit .. =>
    if !nvmeEP then .posted ⟨.no_such_device, r.noPayload⟩ else .loop r.task
  | _ =>
    if !nvmeEP then .posted ⟨.no_such_device, r.noPayload⟩ else .worker r.task

end MiRequest

end NvmeManager
