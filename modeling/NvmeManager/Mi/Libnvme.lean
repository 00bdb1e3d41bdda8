import Mathlib.Data.List.Basic

/-!
# The libnvme-mi interface

libnvme is not part of the repository. Its commands are modelled by what the program hands them and what it reads back:

* `NvmeCall` : a command with its arguments; `Output` : what a command can write for its caller;
* `Answer` : the result status, the `errno` a failed command sets, and what it wrote;
* `Libnvme` : the answers, one for the `n`-th command of a task, any function of the command. A failed command sets
  `errno`; only for the scan of an endpoint is nothing documented but that the result of a failure is not zero;
* `Endpoint` : the state libnvme keeps for an endpoint. A forced scan frees the handles of the scan before it, so a
  handle carries the number of the scan that produced it.
-/

namespace NvmeManager

/-- A controller handle: the scan of its endpoint that produced it, and the pointer. -/
structure Ctrl where
  scan : Nat
  handle : Nat
  deriving DecidableEq, Repr, Inhabited

/-- `nvme_mi_read_nvm_ss_info` -/
structure NvmSsInfo where
  nump : UInt8
  deriving DecidableEq, Repr, Inhabited

/-- `nvme_mi_read_port_info`, with the fields of its PCIe variant. -/
structure PortInfo where
  portt : UInt8
  sls : UInt8
  cls : UInt8
  mlw : UInt8
  nlw : UInt8
  deriving DecidableEq, Repr, Inhabited

/-- `nvme_mi_nvm_ss_health_status` -/
structure HealthStatus where
  nss : UInt8
  pdlu : UInt8
  deriving DecidableEq, Repr, Inhabited

/-- `nvme_identify_cns` -/
inductive IdentifyCns
  | ctrl
  | secondaryCtrlList
  | other (value : UInt8)
  deriving DecidableEq, Repr

/-- `nvme_sanitize_sanact` -/
inductive Sanact
  | exitFailure
  | startBlockErase
  | startOverwrite
  | startCryptoErase
  deriving DecidableEq, Repr

/-- `nvme_cmd_get_log_lid` : the identifiers `adminGetLogPage` knows, and the others. -/
inductive LogLid
  | error
  | smart
  | fwSlot
  | changedNs
  | cmdEffects
  | deviceSelfTest
  | telemetryHost
  | telemetryCtrl
  | reservation
  | sanitize
  | other (value : UInt8)
  deriving DecidableEq, Repr

/-- A libnvme-mi command with the arguments the program gives it. -/
inductive NvmeCall
  | scanEp (forceRescan : Bool)
  | readMiDataSubsys
  | readMiDataPort (port : Nat)
  | subsystemHealthStatusPoll (clear : Bool)
  | identify (ctrl : Ctrl) (cns : IdentifyCns) (nsid : UInt32) (cntid : UInt16)
  | identifyPartial (ctrl : Ctrl) (cns : IdentifyCns) (nsid : UInt32) (cntid : UInt16) (offset size : Nat)
  | sanitizeNvm (ctrl : Ctrl) (sanact : Sanact) (owpass : UInt8) (nodas : Bool) (ovrpat : UInt32)
  | getLogError (ctrl : Ctrl) (num : Nat)
  | getNsidLog (ctrl : Ctrl) (lid : LogLid) (nsid : UInt32) (readLen : Nat)
  | getLogFwSlot (ctrl : Ctrl)
  | getLogCmdEffects (ctrl : Ctrl)
  | getLogDeviceSelfTest (ctrl : Ctrl)
  | getLogChangedNsList (ctrl : Ctrl)
  | getLogCreateTelemetryHost (ctrl : Ctrl)
  | getLogTelemetryHost (ctrl : Ctrl) (offset size : Nat)
  | getLogTelemetryCtrl (ctrl : Ctrl) (offset size : Nat)
  | getLogReservation (ctrl : Ctrl)
  | getLogSanitize (ctrl : Ctrl)
  | adminXfer (ctrl : Ctrl) (req : List UInt8) (respOffset respSize : Nat)
  | fwCommit (ctrl : Ctrl) (action slot : UInt8) (bpid : Bool)
  | securitySend (ctrl : Ctrl) (secp spsp0 spsp1 : UInt8) (data : List UInt8)
  | securityRecv (ctrl : Ctrl) (secp spsp0 spsp1 : UInt8) (dataLen : Nat)
  deriving DecidableEq, Repr

namespace NvmeCall

def ctrl? : NvmeCall → Option Ctrl
  | scanEp _ | readMiDataSubsys | readMiDataPort _ | subsystemHealthStatusPoll _ => none
  | identify c .. | identifyPartial c .. | sanitizeNvm c .. | getLogError c _ | getNsidLog c .. | getLogFwSlot c
  | getLogCmdEffects c | getLogDeviceSelfTest c | getLogChangedNsList c | getLogCreateTelemetryHost c
  | getLogTelemetryHost c .. | getLogTelemetryCtrl c .. | getLogReservation c | getLogSanitize c | adminXfer c ..
  | fwCommit c .. | securitySend c .. | securityRecv c .. => some c

end NvmeCall

/-! ## Sizes -/

def NVME_IDENTIFY_DATA_SIZE : Nat := 4096
def sizeofErrorLogPage : Nat := 64
def sizeofSmartLog : Nat := 512
/-- `sizeof(nvme_smart_log::rsvd232)` -/
def sizeofSmartRsvd232 : Nat := 280
def sizeofFirmwareSlot : Nat := 512
def sizeofCmdEffectsLog : Nat := 4096
def sizeofSelfTestLog : Nat := 564
def sizeofNsList : Nat := 4096
def sizeofTelemetryLog : Nat := 512
def NVME_LOG_TELEM_BLOCK_SIZE : Nat := 512
def sizeofResvNotificationLog : Nat := 64
def sizeofSanitizeLogPage : Nat := 512
def sizeofSecondaryCtrlList : Nat := 4096
def sizeofAdminRespHdr : Nat := 20

/-! ## Buffers -/

def zeros (n : Nat) : List UInt8 := List.replicate n 0

/-- `std::vector::resize` : the front is kept, new bytes are zero. -/
def resize (buf : List UInt8) (n : Nat) : List UInt8 := buf.take n ++ zeros (n - buf.length)

/-- A buffer after `bytes` were written to its front; what does not fit is dropped. -/
def overlay (bytes buf : List UInt8) : List UInt8 := bytes.take buf.length ++ buf.drop bytes.length

@[simp] theorem length_zeros (n : Nat) : (zeros n).length = n := List.length_replicate

@[simp] theorem length_resize (buf : List UInt8) (n : Nat) : (resize buf n).length = n := by
  simp [resize]; omega

@[simp] theorem length_overlay (bytes buf : List UInt8) : (overlay bytes buf).length = buf.length := by
  simp [overlay]; omega

@[simp] theorem resize_nil (n : Nat) : resize [] n = zeros n := by simp [resize]

/-- The byte at an offset; what lies behind the end reads as zero. -/
def byteAt (data : List UInt8) (i : Nat) : UInt8 := data.getD i 0

def u16At (data : List UInt8) (i : Nat) : UInt16 :=
  (byteAt data i).toUInt16 ||| (byteAt data (i + 1)).toUInt16 <<< 8

def u32At (data : List UInt8) (i : Nat) : UInt32 :=
  (u16At data i).toUInt32 ||| (u16At data (i + 2)).toUInt32 <<< 16

def u64At (data : List UInt8) (i : Nat) : UInt64 :=
  (u32At data i).toUInt64 ||| (u32At data (i + 4)).toUInt64 <<< 32

theorem overlay_eq {bytes buf : List UInt8} (h : bytes.length = buf.length) : overlay bytes buf = bytes := by
  unfold overlay
  rw [List.take_of_length_le (Nat.le_of_eq h), List.drop_of_length_le (Nat.le_of_eq h.symm), List.append_nil]

theorem overlay_append_zeros {front : List UInt8} {n : Nat} (h : front.length = n) (bytes : List UInt8) (m : Nat) :
    overlay (front ++ bytes) (zeros (n + m)) = front ++ overlay bytes (zeros m) := by
  subst h
  unfold overlay zeros
  rw [List.length_replicate, List.length_replicate, List.take_length_add_append, List.length_append, List.drop_replicate,
    List.drop_replicate, Nat.add_sub_add_left, List.append_assoc]

theorem resize_append {front : List UInt8} {n : Nat} (h : front.length = n) (bytes : List UInt8) (m : Nat) :
    resize (front ++ bytes) (n + m) = front ++ resize bytes m := by
  subst h
  unfold resize
  rw [List.take_length_add_append, List.length_append, Nat.add_sub_add_left, List.append_assoc]

theorem resize_overlay_zeros (bytes : List UInt8) {n m : Nat} (h : m ≤ n) :
    resize (overlay bytes (zeros n)) m = resize bytes m := by
  have hfit : m - (overlay bytes (zeros n)).length = 0 := by
    rw [length_overlay, length_zeros]
    omega
  unfold resize
  rw [hfit]
  unfold overlay zeros
  rw [List.length_replicate, List.drop_replicate, List.take_append, List.take_take, Nat.min_eq_left h, List.length_take,
    List.take_replicate, List.append_assoc, List.replicate_append_replicate]
  congr 2
  omega

section
variable {data data' : List UInt8} {offset : Nat}

theorem u16At_congr (h : ∀ i < 2, byteAt data (offset + i) = byteAt data' (offset + i)) :
    u16At data offset = u16At data' offset := by
  have h0 : byteAt data offset = byteAt data' offset := h 0 (by omega)
  have h1 : byteAt data (offset + 1) = byteAt data' (offset + 1) := h 1 (by omega)
  unfold u16At
  rw [h0, h1]

theorem u32At_congr (h : ∀ i < 4, byteAt data (offset + i) = byteAt data' (offset + i)) :
    u32At data offset = u32At data' offset := by
  have hlow : u16At data offset = u16At data' offset := u16At_congr fun i hi => h i (by omega)
  have hhigh : u16At data (offset + 2) = u16At data' (offset + 2) := by
    apply u16At_congr
    intro i hi
    rw [Nat.add_assoc]
    exact h (2 + i) (by omega)
  unfold u32At
  rw [hlow, hhigh]

theorem u64At_congr (h : ∀ i < 8, byteAt data (offset + i) = byteAt data' (offset + i)) :
    u64At data offset = u64At data' offset := by
  have hlow : u32At data offset = u32At data' offset := u32At_congr fun i hi => h i (by omega)
  have hhigh : u32At data (offset + 4) = u32At data' (offset + 4) := by
    apply u32At_congr
    intro i hi
    rw [Nat.add_assoc]
    exact h (4 + i) (by omega)
  unfold u64At
  rw [hlow, hhigh]

theorem byteAt_take {n i : Nat} (h : i < n) : byteAt (data.take n) i = byteAt data i := by
  unfold byteAt
  rw [List.getD_eq_getElem?_getD, List.getD_eq_getElem?_getD, List.getElem?_take_of_lt h]

theorem byteAt_overlay_zeros {n i : Nat} (h : i < n) : byteAt (overlay data (zeros n)) i = byteAt data i := by
  unfold byteAt overlay
  rw [List.getD_eq_getElem?_getD, List.getD_eq_getElem?_getD, length_zeros]
  by_cases hi : i < data.length
  · rw [List.getElem?_append_left (by rw [List.length_take]; omega), List.getElem?_take_of_lt h]
  · have hlen : (data.take n).length = data.length := by
      rw [List.length_take]
      omega
    rw [List.getElem?_append_right (by omega), List.getElem?_drop, List.getElem?_eq_none (Nat.le_of_not_lt hi), hlen,
      Nat.add_sub_of_le (Nat.le_of_not_lt hi), zeros, List.getElem?_replicate_of_lt h]
    rfl

end

/-! ## Answers -/

/-- What a command can write for its caller; each writes the part that its arguments ask for. -/
structure Output where
  /-- The controllers that a scan found. -/
  handles : List Nat := []
  ssInfo : NvmSsInfo := ⟨0⟩
  port : PortInfo := ⟨0, 0, 0, 0, 0⟩
  health : HealthStatus := ⟨0, 0⟩
  /-- The bytes for the caller's buffer. -/
  data : List UInt8 := []
  /-- The response header of a raw transfer. -/
  hdr : List UInt8 := []
  /-- The size that a raw transfer or a security receive reports. -/
  size : Nat := 0
  deriving DecidableEq, Repr, Inhabited

/-- The answer to a command: `rc` is negative, zero, or a positive NVMe(-MI) status. A negative one stands with the
`errno` that the command set, where zero is for none. The output is written only by a command that succeeds;
`nvme_mi_admin_xfer` also stores the response that carries a status. -/
structure Answer where
  rc : Int
  errno : Int
  out : Output
  deriving DecidableEq, Repr

namespace Answer

def ok (out : Output) : Answer := ⟨0, 0, out⟩

/-- A command the drive answers with the positive status `n + 1`. -/
def status (n : Nat) : Answer := ⟨n + 1, 0, {}⟩

/-- A command that fails with `errno = e + 1`. -/
def failed (e : Nat) : Answer := ⟨-1, e + 1, {}⟩

/-- The bytes a command leaves in its buffer: those it wrote if it succeeded. -/
def fill (a : Answer) (len : Nat) (buf : List UInt8) : List UInt8 :=
  if a.rc = 0 then overlay (a.out.data.take len) buf else buf

/-- The command has failed and has set `errno`. -/
def SetsErrno (a : Answer) : Prop := a.rc < 0 ∧ a.errno ≠ 0

instance (a : Answer) : Decidable a.SetsErrno := inferInstanceAs (Decidable (_ ∧ _))

/-- The `errno` of a thread after the command, which was `e` before. -/
def errnoAfter (a : Answer) (e : Int) : Int := if a.SetsErrno then a.errno else e

theorem errnoAfter_of_nonneg {a : Answer} (h : ¬ a.rc < 0) (e : Int) : a.errnoAfter e = e :=
  if_neg fun hset => h hset.1

theorem errnoAfter_ne_zero {a : Answer} (h : a.SetsErrno) (e : Int) : a.errnoAfter e ≠ 0 := by
  rw [errnoAfter, if_pos h]
  exact h.2

end Answer

/-- The commands that set `errno` when they fail. -/
def NvmeCall.SetsErrno : NvmeCall → Prop
  | scanEp _ => False
  | _ => True

/-- The drive behind libnvme: its answer to the `n`-th command of a closure. -/
structure Libnvme where
  answer : Nat → NvmeCall → Answer
  errno_set : ∀ {n c}, c.SetsErrno → (answer n c).rc < 0 → (answer n c).errno ≠ 0

namespace Libnvme

instance : CoeFun Libnvme fun _ => Nat → NvmeCall → Answer := ⟨answer⟩

theorem errnoAfter_ne_zero (lib : Libnvme) {n : Nat} {c : NvmeCall} (hrc : (lib n c).rc < 0) (hc : c.SetsErrno)
    (e : Int) : (lib n c).errnoAfter e ≠ 0 :=
  Answer.errnoAfter_ne_zero ⟨hrc, lib.errno_set hc hrc⟩ e

def writing (out : Nat → NvmeCall → Output) : Libnvme := ⟨fun n c => .ok (out n c), fun _ h => absurd h (Int.lt_irrefl 0)⟩

def ok (out : Output) : Libnvme := writing fun _ _ => out

/-- A drive that answers every command with a status. -/
def status (n : Nat) : Libnvme := ⟨fun _ _ => .status n, fun _ h => absurd h (Int.not_lt.mpr (Int.natCast_nonneg (n + 1)))⟩

/-- A drive that no command reaches. -/
def failed (e : Nat) : Libnvme := ⟨fun _ _ => .failed e, fun _ _ => Int.natCast_ne_zero.mpr e.succ_ne_zero⟩

end Libnvme

/-- The state of an endpoint: the number of scans executed, the controllers of the last one, and the timeout. -/
structure Endpoint where
  scans : Nat
  ctrls : List Ctrl
  timeout : Nat
  deriving DecidableEq, Repr, Inhabited

/-- The endpoint after a command. A forced scan forgets the controllers first, so they are gone even if it fails; the
program makes no other scan. -/
def Endpoint.after (ep : Endpoint) (c : NvmeCall) (a : Answer) : Endpoint :=
  match c with
  | .scanEp true =>
      { ep with
        scans := ep.scans + 1
        ctrls := if a.rc = 0 then a.out.handles.map fun p => ⟨ep.scans + 1, p⟩ else [] }
  | _ => ep

end NvmeManager
