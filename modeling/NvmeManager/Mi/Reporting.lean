import NvmeManager.Mi.Delivery

/-!
# What the callback of a request is told

* `written made` : what the commands of a request wrote, as the payload of its callback;
* `Faithful made reply` : a reply without error means that every command succeeded, and carries what they wrote; if one
  failed, the reply is an error without payload;
* `LogSpec` : what the switch of `adminGetLogPage` promises to the tests after it. The two cases that declare an `rc` of
  their own promise it only for a successful read (`logSpec_shadowed`);
* `faithful_iff` : the replies of a request are faithful unless a log read ends in a positive status, one of the two
  shadowed reads fails, or a scan fails where nothing has set `errno`.
-/

namespace NvmeManager
open Closure

/-! ## What the commands wrote -/

/-- The buffer that the program hands to a command that fills one: its size, and the number of bytes that the command is
asked for. -/
def NvmeCall.buffer? : NvmeCall → Option (Nat × Nat)
  | identify .. => some (NVME_IDENTIFY_DATA_SIZE, NVME_IDENTIFY_DATA_SIZE)
  | identifyPartial _ _ _ _ _ size => some (size, size)
  | sanitizeNvm .. => some (8, 4)
  | getLogError _ num => some (NVMeMi.nvme_mi_xfer_size, num * sizeofErrorLogPage)
  | getNsidLog _ _ _ readLen => some (sizeofSmartLog, readLen)
  | getLogFwSlot _ => some (sizeofFirmwareSlot, sizeofFirmwareSlot)
  | getLogCmdEffects _ => some (sizeofCmdEffectsLog, sizeofCmdEffectsLog)
  | getLogDeviceSelfTest _ => some (sizeofSelfTestLog, sizeofSelfTestLog)
  | getLogChangedNsList _ => some (sizeofNsList, sizeofNsList)
  | getLogCreateTelemetryHost _ => some (sizeofTelemetryLog, sizeofTelemetryLog)
  | getLogTelemetryHost _ _ size => some (size, size)
  | getLogTelemetryCtrl _ _ size => some (size, size)
  | getLogReservation _ => some (sizeofResvNotificationLog, sizeofResvNotificationLog)
  | getLogSanitize _ => some (sizeofSanitizeLogPage, sizeofSanitizeLogPage)
  | _ => none

/-- What a successful command leaves, after what the commands before it left. -/
def Made.write (before : Payload) (m : Made) : Payload :=
  match m.call.buffer? with
  | some (room, len) => .span (overlay (m.ans.out.data.take len) (resize before.bytes room))
  | none =>
    match m.call with
    | .scanEp _ => .ctrls (m.ans.out.handles.map fun p => ⟨m.scans + 1, p⟩)
    | .readMiDataPort _ => .port m.ans.out.port
    | .subsystemHealthStatusPoll _ => .health m.ans.out.health
    | _ => before

def written (made : List Made) : Payload := made.foldl Made.write .null

@[simp] theorem written_nil : written [] = .null := rfl

@[simp] theorem written_append (made : List Made) (m : Made) : written (made ++ [m]) = m.write (written made) := by
  simp [written]

@[simp] theorem written_singleton (m : Made) : written [m] = m.write .null := rfl

/-- A reply tells the outcome of the commands that were made for it. -/
structure Faithful (made : List Made) (reply : Reply) : Prop where
  success : reply.ec.isError = false → (∀ m ∈ made, m.ans.rc = 0) ∧ reply.payload = written made
  failure : (∃ m ∈ made, m.ans.rc ≠ 0) → reply.ec.isError = true ∧ reply.payload.isNone = true

/-- An error without payload tells the truth about any commands. -/
theorem faithful_error {made : List Made} {ec : ErrorCode} {p : Payload} (hec : ec.isError = true)
    (hp : p.isNone = true) : Faithful made ⟨ec, p⟩ :=
  ⟨fun h => absurd h (by simp [hec]), fun _ => ⟨hec, hp⟩⟩

theorem faithful_success {made : List Made} {p : Payload} (hmade : ∀ m ∈ made, m.ans.rc = 0)
    (hp : p = written made) : Faithful made ⟨.noError, p⟩ := by
  refine ⟨fun _ => ⟨hmade, hp⟩, ?_⟩
  rintro ⟨m, hm, hrc⟩
  exact absurd (hmade m hm) hrc

theorem not_faithful_success {made : List Made} {p : Payload} (h : ∃ m ∈ made, m.ans.rc ≠ 0) :
    ¬ Faithful made ⟨.noError, p⟩ := by
  intro hf
  obtain ⟨m, hm, hrc⟩ := h
  exact hrc ((hf.success rfl).1 m hm)

/-- The callbacks that a closure posts, on a thread that has posted none, are faithful to the commands made. -/
def FaithfulOn (t : Thread) : Prop := ∀ reply ∈ t.posted, Faithful t.made reply

namespace NVMeMi
variable (lib : Libnvme)

/-! ## Requests of one command -/

theorem faithfulOn_reportResult {c : NvmeCall} {t : Thread} {a : Answer} {empty p : Payload}
    {success : Closure Payload} (hposted : t.posted = []) (hmade : ∀ m ∈ t.made, m.ans.rc = 0)
    (he : empty.isNone = true) (herrno : a.rc < 0 → a.errnoAfter t.errno ≠ 0)
    (hsuccess : success.exec lib (t.call c a) = (p, t.call c a))
    (hp : a.rc = 0 → p = Made.write (written t.made) ⟨c, t.ep.scans, a⟩) :
    FaithfulOn ((reportResult a.rc empty success).exec lib (t.call c a)).2 := by
  unfold reportResult
  rcases Int.lt_trichotomy a.rc 0 with h | h | h
  · simp only [h, if_true, exec_bind, exec_errno, exec_ioPost, Thread.errno_call]
    intro reply hr
    obtain rfl : reply = _ := by simpa [hposted] using hr
    exact faithful_error (ErrorCode.isError_ofErrno (herrno h)) he
  · simp only [h, Int.lt_irrefl, if_false, gt_iff_lt, exec_bind, hsuccess, exec_ioPost]
    intro reply hr
    obtain rfl : reply = _ := by simpa [hposted] using hr
    refine faithful_success ?_ ?_
    · intro m hm
      simp only [Thread.made_post, Thread.made_call, List.mem_append, List.mem_singleton] at hm
      rcases hm with hm | rfl
      · exact hmade m hm
      · exact h
    · rw [hp h]
      simp
  · simp only [Int.not_lt.mpr (Int.le_of_lt h), if_false, gt_iff_lt, h, if_true, exec_ioPost]
    intro reply hr
    obtain rfl : reply = _ := by simpa [hposted] using hr
    exact faithful_error rfl he

theorem made_reportResult {c : NvmeCall} {empty : Payload} {success : Answer → Closure Payload}
    (hsuccess : ∀ a t, ∃ p, (success a).exec lib t = (p, t)) (errno : Int) (ep : Endpoint) :
    ((nvme c >>= fun a => reportResult a.rc empty (success a)).exec lib (.start errno ep)).2.made =
      [⟨c, ep.scans, lib 0 c⟩] := by
  rw [exec_bind]
  simp only [exec_nvme, Thread.made_start, List.length_nil]
  obtain ⟨p, hp⟩ := hsuccess (lib 0 c) ((Thread.start errno ep).call c (lib 0 c))
  unfold reportResult
  rcases Int.lt_trichotomy (lib 0 c).rc 0 with h | h | h
  · simp [h]
  · simp [h, hp]
  · simp [h, Int.not_lt.mpr (Int.le_of_lt h)]

theorem faithful_miSubsystemHealthStatusPoll (errno : Int) (ep : Endpoint) :
    FaithfulOn (miSubsystemHealthStatusPoll.exec lib (.start errno ep)).2 :=
  faithfulOn_reportResult lib rfl (by simp) rfl (fun hrc => lib.errnoAfter_ne_zero hrc trivial errno) rfl fun _ => rfl

/-- A scan that fails on a thread without an `errno`, and sets none. -/
def UnsetScan (errno : Int) : Prop :=
  (lib 0 (.scanEp true)).rc < 0 ∧ (lib 0 (.scanEp true)).errno = 0 ∧ errno = 0

/-- The controllers that the loop over them collects are those of the scan. -/
theorem posted_miScanCtrl (errno : Int) (ep : Endpoint) : (miScanCtrl.exec lib (.start errno ep)).2.posted =
    [⟨if (lib 0 (.scanEp true)).rc < 0 then .ofErrno ((lib 0 (.scanEp true)).errnoAfter errno)
      else if (lib 0 (.scanEp true)).rc > 0 then .bad_message else .noError,
      .ctrls (if (lib 0 (.scanEp true)).rc = 0 then (lib 0 (.scanEp true)).out.handles.map (⟨ep.scans + 1, ·⟩)
        else [])⟩] := by
  unfold miScanCtrl reportResult
  rw [exec_bind]
  simp only [exec_nvme, Thread.made_start, List.length_nil]
  rcases Int.lt_trichotomy (lib 0 (.scanEp true)).rc 0 with hrc | hrc | hrc
  · simp [hrc, Int.ne_of_lt hrc]
  · simp [hrc, Endpoint.after]
  · simp [hrc, Int.not_lt.mpr (Int.le_of_lt hrc), Int.ne_of_gt hrc]

theorem made_miScanCtrl (errno : Int) (ep : Endpoint) : (miScanCtrl.exec lib (.start errno ep)).2.made =
    [⟨.scanEp true, ep.scans, lib 0 (.scanEp true)⟩] :=
  made_reportResult lib (fun _ _ => ⟨_, rfl⟩) errno ep

/-- A failure that leaves no `errno` reads as a success. -/
theorem faithful_miScanCtrl_iff (errno : Int) (ep : Endpoint) :
    FaithfulOn (miScanCtrl.exec lib (.start errno ep)).2 ↔ ¬ UnsetScan lib errno := by
  refine ⟨fun hall hunset => ?_, fun hset => ?_⟩
  · obtain ⟨hrc, ha, rfl⟩ := hunset
    unfold FaithfulOn at hall
    rw [posted_miScanCtrl, made_miScanCtrl, List.forall_mem_singleton, if_pos hrc, Answer.errnoAfter,
      if_neg fun h => h.2 ha] at hall
    exact not_faithful_success ⟨_, List.mem_singleton_self _, Int.ne_of_lt hrc⟩ hall
  · refine faithfulOn_reportResult lib rfl (by simp) rfl (fun hrc => ?_) rfl fun hrc => ?_
    · change (lib 0 (.scanEp true)).errnoAfter errno ≠ 0
      by_cases ha : (lib 0 (.scanEp true)).errno = 0
      · rw [Answer.errnoAfter, if_neg fun h => h.2 ha]
        exact fun he => hset ⟨hrc, ha, he⟩
      · exact Answer.errnoAfter_ne_zero ⟨hrc, ha⟩ errno
    · change (lib 0 (.scanEp true)).rc = 0 at hrc
      change Payload.ctrls (if (lib 0 (.scanEp true)).rc = 0 then _ else _) = _
      rw [if_pos hrc]
      rfl

theorem fill_of_rc {a : Answer} (h : a.rc = 0) (len : Nat) (buf : List UInt8) :
    a.fill len buf = overlay (a.out.data.take len) buf := if_pos h

theorem faithful_adminIdentify (errno : Int) (ep : Endpoint) (ctrl : Ctrl) (cns : IdentifyCns) (nsid : UInt32)
    (cntid read_length : UInt16) :
    FaithfulOn ((adminIdentify ctrl cns nsid cntid read_length).exec lib (.start errno ep)).2 := by
  unfold adminIdentify
  split
  · refine faithfulOn_reportResult lib rfl (by simp) rfl (fun hrc => lib.errnoAfter_ne_zero hrc trivial errno) rfl
      fun h => ?_
    rw [fill_of_rc h]
    simp [Made.write, NvmeCall.buffer?, Payload.bytes]
  · refine faithfulOn_reportResult lib rfl (by simp) rfl (fun hrc => lib.errnoAfter_ne_zero hrc trivial errno) rfl
      fun h => ?_
    rw [fill_of_rc h]
    rfl

theorem faithful_adminSanitize (errno : Int) (ep : Endpoint) (ctrl : Ctrl) (sanact : Sanact) (owpass : UInt8)
    (owpattern : UInt32) :
    FaithfulOn ((adminSanitize ctrl sanact owpass owpattern).exec lib (.start errno ep)).2 := by
  refine faithfulOn_reportResult lib rfl (by simp) rfl (fun hrc => lib.errnoAfter_ne_zero hrc trivial errno) rfl
    fun h => ?_
  rw [fill_of_rc h]
  rfl

/-! ## The ports -/

theorem exec_readPorts (left i : Nat) (t : Thread) (a : Answer)
    (ha : lib t.made.length (.readMiDataPort i) = a) :
    (readPorts left i).exec lib t =
      if a.rc ≠ 0 then ((), (t.call (.readMiDataPort i) a).post ⟨.bad_message, .null⟩)
      else if a.out.port.portt = 0x1 then ((), (t.call (.readMiDataPort i) a).post ⟨.noError, .port a.out.port⟩)
      else match left with
        | 0 => ((), (t.call (.readMiDataPort i) a).post ⟨.noError, .port a.out.port⟩)
        | left + 1 => (readPorts left (i + 1)).exec lib (t.call (.readMiDataPort i) a) := by
  have hturn : (readPorts left i).exec lib t = ((if a.rc ≠ 0 then ioPost ⟨.bad_message, .null⟩
      else if a.out.port.portt = 0x1 then ioPost ⟨.noError, .port a.out.port⟩
      else match left with
        | 0 => ioPost ⟨.noError, .port a.out.port⟩
        | left + 1 => readPorts left (i + 1)) : Closure Unit).exec lib (t.call (.readMiDataPort i) a) := by
    subst ha
    cases left <;> rfl
  rw [hturn]
  cases left with
  | zero => split_ifs <;> rfl
  | succ left => split_ifs <;> rfl

theorem made_port {t : Thread} {i : Nat} {a : Answer} (hmade : ∀ m ∈ t.made, m.ans.rc = 0)
    (hrc : a.rc = 0) : ∀ m ∈ (t.call (.readMiDataPort i) a).made, m.ans.rc = 0 := by
  intro m hm
  rcases List.mem_append.mp hm with hm | hm
  · exact hmade m hm
  · rw [List.mem_singleton.mp hm]
    exact hrc

theorem faithful_port {t : Thread} {i : Nat} {a : Answer} (hmade : ∀ m ∈ t.made, m.ans.rc = 0)
    (hrc : a.rc = 0) : Faithful (t.call (.readMiDataPort i) a).made ⟨.noError, .port a.out.port⟩ := by
  refine faithful_success (made_port hmade hrc) ?_
  rw [Thread.made_call, written_append]
  rfl

theorem faithfulOn_post {t : Thread} {reply : Reply} (hposted : t.posted = []) (h : Faithful t.made reply) :
    FaithfulOn (t.post reply) := by
  intro r hr
  rw [Thread.posted_post, hposted, List.nil_append, List.mem_singleton] at hr
  rw [hr]
  exact h

theorem faithful_readPorts (left i : Nat) (t : Thread) (hposted : t.posted = [])
    (hmade : ∀ m ∈ t.made, m.ans.rc = 0) : FaithfulOn ((readPorts left i).exec lib t).2 := by
  induction left generalizing i t with
  | zero =>
      rw [exec_readPorts lib 0 i t _ rfl]
      generalize lib t.made.length (.readMiDataPort i) = a
      split_ifs with hrc hport
      · exact faithfulOn_post hposted (faithful_error rfl rfl)
      · exact faithfulOn_post hposted (faithful_port hmade (not_not.mp hrc))
      · exact faithfulOn_post hposted (faithful_port hmade (not_not.mp hrc))
  | succ left ih =>
      rw [exec_readPorts lib (left + 1) i t _ rfl]
      generalize lib t.made.length (.readMiDataPort i) = a
      split_ifs with hrc hport
      · exact faithfulOn_post hposted (faithful_error rfl rfl)
      · exact faithfulOn_post hposted (faithful_port hmade (not_not.mp hrc))
      · exact ih (i + 1) (t.call (.readMiDataPort i) a) hposted (made_port hmade (not_not.mp hrc))

theorem exec_miPCIePortInformation (t : Thread) (a : Answer) (ha : lib t.made.length .readMiDataSubsys = a) :
    miPCIePortInformation.exec lib t =
      let t' := t.call .readMiDataSubsys a
      if a.rc < 0 then ((), t'.post ⟨.ofErrno t'.errno, .null⟩)
      else if a.rc > 0 then ((), t'.post ⟨.bad_message, .null⟩)
      else (readPorts a.out.ssInfo.nump.toNat 0).exec lib t' := by
  have hturn : miPCIePortInformation.exec lib t =
      ((if a.rc < 0 then do
          let last_errno ← Closure.errno
          ioPost ⟨.ofErrno last_errno, .null⟩
        else if a.rc > 0 then ioPost ⟨.bad_message, .null⟩
        else readPorts a.out.ssInfo.nump.toNat 0) : Closure Unit).exec lib (t.call .readMiDataSubsys a) := by
    subst ha
    rfl
  rw [hturn]
  split_ifs <;> rfl

theorem faithful_miPCIePortInformation (errno : Int) (ep : Endpoint) :
    FaithfulOn (miPCIePortInformation.exec lib (.start errno ep)).2 := by
  rw [exec_miPCIePortInformation lib (.start errno ep) (lib 0 .readMiDataSubsys) rfl]
  dsimp only
  split_ifs with hneg hpos
  · refine faithfulOn_post rfl (faithful_error (ErrorCode.isError_ofErrno ?_) rfl)
    exact lib.errnoAfter_ne_zero hneg trivial errno
  · exact faithfulOn_post rfl (faithful_error rfl rfl)
  · refine faithful_readPorts lib _ 0 _ rfl ?_
    simpa using Int.le_antisymm (Int.not_lt.mp hpos) (Int.not_lt.mp hneg)

/-! ## Log pages -/

/-- What the switch of `adminGetLogPage` promises to the tests after it, of `rc` and `data` and of the thread. -/
structure LogSpec (log : Int × List UInt8) (t : Thread) : Prop where
  zero : log.1 = 0 → (∀ m ∈ t.made, m.ans.rc = 0) ∧ .span log.2 = written t.made
  neg : log.1 < 0 → t.errno ≠ 0
  pos : 0 < log.1 → ∃ m ∈ t.made, m.ans.rc ≠ 0

/-- The last command decides the result, after commands that succeeded. -/
theorem logSpec_last {t : Thread} {c : NvmeCall} {a : Answer} {data : List UInt8}
    (hmade : ∀ m ∈ t.made, m.ans.rc = 0) (herrno : a.rc < 0 → a.errno ≠ 0)
    (hdata : a.rc = 0 → .span data = Made.write (written t.made) ⟨c, t.ep.scans, a⟩) :
    LogSpec (a.rc, data) (t.call c a) := by
  refine ⟨fun h => ⟨?_, ?_⟩, fun h => ?_, fun h => ⟨⟨c, t.ep.scans, a⟩, by simp, Int.ne_of_gt h⟩⟩
  · intro m hm
    rcases List.mem_append.mp hm with hm | hm
    · exact hmade m hm
    · rw [List.mem_singleton.mp hm]
      exact h
  · rw [Thread.made_call, written_append]
    exact hdata h
  · exact Answer.errnoAfter_ne_zero ⟨h, herrno h⟩ t.errno

theorem logSpec_single {c : NvmeCall} {errno : Int} {ep : Endpoint} {a : Answer} {len room : Nat}
    (hc : c.buffer? = some (room, len)) (herrno : a.rc < 0 → a.errno ≠ 0) :
    LogSpec (readLogPage a len room) ((Thread.start errno ep).call c a) := by
  refine logSpec_last (by simp) herrno fun h => ?_
  simp [Made.write, hc, Payload.bytes, fill_of_rc h]

theorem logSpec_shadowed {c : NvmeCall} {errno : Int} {ep : Endpoint} {a : Answer} {len room : Nat}
    (hc : c.buffer? = some (room, len)) (hrc : a.rc = 0) :
    LogSpec (0, (readLogPage a len room).2) ((Thread.start errno ep).call c a) := by
  have h : LogSpec (readLogPage a len room) ((Thread.start errno ep).call c a) :=
    logSpec_single hc fun hneg => absurd hrc (Int.ne_of_lt hneg)
  rwa [readLogPage, hrc] at h

theorem logSpec_einval (data : List UInt8) (t : Thread) : LogSpec (-1, data) { t with errno := 22 } :=
  ⟨by simp, by simp, by simp⟩

theorem buffer_telemetryCall (ctrl : Ctrl) (host : Bool) (offset size : Nat) :
    (telemetryCall ctrl host offset size).buffer? = some (size, size) := by
  cases host <;> rfl

theorem setsErrno_telemetryCall (ctrl : Ctrl) (host : Bool) (offset size : Nat) :
    (telemetryCall ctrl host offset size).SetsErrno := by
  cases host <;> trivial

theorem logSpec_getTelemetryLog (errno : Int) (ep : Endpoint) (ctrl : Ctrl) (host create : Bool) :
    LogSpec ((getTelemetryLog ctrl host create).exec lib (.start errno ep)).1
      ((getTelemetryLog ctrl host create).exec lib (.start errno ep)).2 := by
  unfold getTelemetryLog
  by_cases hcreate : (host && create) = true
  · simp only [hcreate, if_true, exec_bind, exec_nvme, exec_pure, Thread.made_start, List.length_nil]
    exact logSpec_single rfl (lib.errno_set trivial)
  · simp only [hcreate, if_false, exec_bind, exec_nvme, Thread.made_start, List.length_nil, Bool.false_eq_true]
    by_cases hrc : (lib 0 (telemetryCall ctrl host 0 sizeofTelemetryLog)).rc = 0
    · simp only [hrc, ne_eq, not_true_eq_false, if_false, exec_bind, exec_nvme, exec_pure]
      refine logSpec_last ?_ (lib.errno_set (setsErrno_telemetryCall ..)) fun h => ?_
      · simpa using hrc
      · rw [fill_of_rc h]
        simp [Made.write, buffer_telemetryCall, Payload.bytes, fill_of_rc hrc]
    · simp only [hrc, ne_eq, not_false_eq_true, if_true, exec_pure]
      exact logSpec_last (by simp) (lib.errno_set (setsErrno_telemetryCall ..)) fun h => absurd h hrc

/-- The identifiers whose case declares an `rc` of its own, with the read that it makes. -/
def shadowedRead? (ctrl : Ctrl) : LogLid → Option NvmeCall
  | .reservation => some (.getLogReservation ctrl)
  | .sanitize => some (.getLogSanitize ctrl)
  | _ => none

theorem logSpec_readLog (errno : Int) (ep : Endpoint) (ctrl : Ctrl) (lid : LogLid) (nsid : UInt32) (lsp : UInt8)
    (h : ∀ c ∈ shadowedRead? ctrl lid, (lib 0 c).rc = 0) :
    LogSpec ((readLog ctrl lid nsid lsp).exec lib (.start errno ep)).1
      ((readLog ctrl lid nsid lsp).exec lib (.start errno ep)).2 := by
  cases lid with
  | error => exact logSpec_single rfl (lib.errno_set trivial)
  | smart => exact logSpec_single rfl (lib.errno_set trivial)
  | fwSlot => exact logSpec_single rfl (lib.errno_set trivial)
  | changedNs => exact logSpec_single rfl (lib.errno_set trivial)
  | cmdEffects => exact logSpec_single rfl (lib.errno_set trivial)
  | deviceSelfTest => exact logSpec_single rfl (lib.errno_set trivial)
  | telemetryHost =>
      unfold readLog
      by_cases hc : lsp = lspCreate
      · simp only [hc, if_true]
        exact logSpec_getTelemetryLog lib errno ep ctrl true true
      · by_cases hr : lsp = lspRetain
        · simp only [hr, show lspRetain ≠ lspCreate by decide, if_false, if_true]
          exact logSpec_getTelemetryLog lib errno ep ctrl true false
        · simp only [hc, hr, if_false]
          exact logSpec_einval [] _
  | telemetryCtrl => exact logSpec_getTelemetryLog lib errno ep ctrl false false
  | reservation => exact logSpec_shadowed rfl (h _ rfl)
  | sanitize => exact logSpec_shadowed rfl (h _ rfl)
  | other v => exact logSpec_einval [] _

/-- Past the switch of a case with an `rc` of its own, only the callback of a success is posted. -/
theorem logReplies_shadowed {ctrl : Ctrl} {lid : LogLid} {c : NvmeCall} (hc : c ∈ shadowedRead? ctrl lid)
    (nsid : UInt32) (lsp : UInt8) (t : Thread) :
    ∃ data, ((readLog ctrl lid nsid lsp).exec lib t).1 = (0, data) ∧
      ((readLog ctrl lid nsid lsp).exec lib t).2 = t.call c (lib t.made.length c) := by
  cases lid with
  | reservation => exact ⟨_, by cases hc; exact ⟨rfl, rfl⟩⟩
  | sanitize => exact ⟨_, by cases hc; exact ⟨rfl, rfl⟩⟩
  | _ => cases hc

theorem made_adminGetLogPage (errno : Int) (ep : Endpoint) (ctrl : Ctrl) (lid : LogLid) (nsid : UInt32) (lsp : UInt8)
    (lsi : UInt16) :
    ((adminGetLogPage ctrl lid nsid lsp lsi).exec lib (.start errno ep)).2.made =
      ((readLog ctrl lid nsid lsp).exec lib (.start errno ep)).2.made := by
  unfold adminGetLogPage
  rw [exec_bind]
  generalize (readLog ctrl lid nsid lsp).exec lib (.start errno ep) = log
  rcases Int.lt_trichotomy log.1.1 0 with h | h | h
  · simp [h]
  · simp [h]
  · simp [h, Int.not_lt.mpr (Int.le_of_lt h)]

theorem faithful_logReplies_iff {log : Int × List UInt8} {t : Thread} (h : LogSpec log t) :
    (∀ reply ∈ logReplies log t.errno, Faithful t.made reply) ↔ ¬ 0 < log.1 := by
  unfold logReplies
  rcases Int.lt_trichotomy log.1 0 with hlog | hlog | hlog
  · simp only [hlog, if_true, List.mem_singleton, forall_eq]
    exact iff_of_true (faithful_error (ErrorCode.isError_ofErrno (h.neg hlog)) rfl) (Int.not_lt.mpr (Int.le_of_lt hlog))
  · obtain ⟨hmade, hdata⟩ := h.zero hlog
    simp only [hlog, Int.lt_irrefl, if_false, gt_iff_lt, List.nil_append, List.mem_singleton, forall_eq]
    exact iff_of_true (faithful_success hmade hdata) id
  · refine iff_of_false (fun hall => ?_) (not_not_intro hlog)
    refine not_faithful_success (h.pos hlog) (hall ⟨.noError, .span log.2⟩ ?_)
    simp [Int.not_lt.mpr (Int.le_of_lt hlog)]

end NVMeMi

/-! ## Requests -/

namespace MiRequest

/-- The requests with an error code and a payload that the drive fills in. -/
def Reported : MiRequest → Prop
  | adminXfer .. | adminFwCommit .. | adminSecuritySend .. | adminSecurityReceive .. => False
  | _ => True

/-- The requests whose callback is told something wrong: a scan that fails where nothing has set `errno`, a log read that
the drive answers with a status, and a failed read of the reservation or the sanitize log. -/
def Misreported (r : MiRequest) (lib : Libnvme) (errno : Int) : Prop :=
  match r with
  | miScanCtrl => NVMeMi.UnsetScan lib errno
  | adminGetLogPage ctrl lid nsid lsp _ =>
    NVMeMi.LogStatus lib ctrl lid nsid lsp ∨ ∃ c ∈ NVMeMi.shadowedRead? ctrl lid, (lib 0 c).rc ≠ 0
  | _ => False

theorem faithful_adminGetLogPage_iff (lib : Libnvme) (errno : Int) (ep : Endpoint) (ctrl : Ctrl) (lid : LogLid)
    (nsid : UInt32) (lsp : UInt8) (lsi : UInt16) :
    FaithfulOn ((adminGetLogPage ctrl lid nsid lsp lsi).executed lib errno ep) ↔
      ¬ (adminGetLogPage ctrl lid nsid lsp lsi).Misreported lib errno := by
  unfold FaithfulOn executed task
  rw [NVMeMi.adminGetLogPage_posted, NVMeMi.made_adminGetLogPage, Thread.posted_start, List.nil_append]
  by_cases hshadow : ∀ c ∈ NVMeMi.shadowedRead? ctrl lid, (lib 0 c).rc = 0
  · rw [NVMeMi.faithful_logReplies_iff (NVMeMi.logSpec_readLog lib errno ep ctrl lid nsid lsp hshadow),
      NVMeMi.readLog_pos_iff]
    have hnone : ¬ ∃ c ∈ NVMeMi.shadowedRead? ctrl lid, (lib 0 c).rc ≠ 0 := by
      rintro ⟨c, hc, hrc⟩
      exact hrc (hshadow c hc)
    exact not_congr (or_iff_left hnone).symm
  · obtain ⟨c, hc, hrc⟩ : ∃ c ∈ NVMeMi.shadowedRead? ctrl lid, (lib 0 c).rc ≠ 0 := by
      simpa using hshadow
    obtain ⟨data, hlog, hthread⟩ := NVMeMi.logReplies_shadowed lib hc nsid lsp (.start errno ep)
    refine iff_of_false (fun hall => ?_) (not_not_intro (Or.inr ⟨c, hc, hrc⟩))
    rw [hlog, hthread] at hall
    refine not_faithful_success ?_ (hall ⟨.noError, .span data⟩ (by simp [NVMeMi.logReplies]))
    exact ⟨⟨c, ep.scans, lib 0 c⟩, by simp, hrc⟩

/-- **Reporting.** The callback of a request that the worker executes is told the outcome of the commands made for it,
with what they wrote, if and only if the request is not one of the kinds of `Misreported`. -/
theorem faithful_iff (r : MiRequest) (hr : r.Reported) (lib : Libnvme) (errno : Int) (ep : Endpoint) :
    FaithfulOn (r.executed lib errno ep) ↔ ¬ r.Misreported lib errno := by
  cases r with
  | miPCIePortInformation => exact iff_of_true (NVMeMi.faithful_miPCIePortInformation lib errno ep) id
  | miSubsystemHealthStatusPoll => exact iff_of_true (NVMeMi.faithful_miSubsystemHealthStatusPoll lib errno ep) id
  | miScanCtrl => exact NVMeMi.faithful_miScanCtrl_iff lib errno ep
  | adminIdentify ctrl cns nsid cntid len =>
      exact iff_of_true (NVMeMi.faithful_adminIdentify lib errno ep ctrl cns nsid cntid len) id
  | adminSanitize ctrl sanact owpass owpattern =>
      exact iff_of_true (NVMeMi.faithful_adminSanitize lib errno ep ctrl sanact owpass owpattern) id
  | adminGetLogPage ctrl lid nsid lsp lsi => exact faithful_adminGetLogPage_iff lib errno ep ctrl lid nsid lsp lsi
  | _ => exact hr.elim

/-- The theorem at the scan of an endpoint whose drive answers with a status. -/
theorem faithful_iff_scan :
    FaithfulOn (miScanCtrl.executed (.status 3) 0 ⟨0, [], 5000⟩) ↔ ¬ miScanCtrl.Misreported (.status 3) 0 :=
  faithful_iff miScanCtrl trivial _ 0 _

/-- A sanitize log read that fails with `ETIMEDOUT`: the callback is told of success, with 512 zero bytes. -/
theorem sanitize_log_failure_reported_as_success :
    ((adminGetLogPage ⟨1, 0⟩ .sanitize 0 0 0).executed (.failed 109) 0 ⟨1, [⟨1, 0⟩], 5000⟩).posted =
      [⟨.noError, .span (zeros sizeofSanitizeLogPage)⟩] ∧
    ¬ FaithfulOn ((adminGetLogPage ⟨1, 0⟩ .sanitize 0 0 0).executed (.failed 109) 0
      ⟨1, [⟨1, 0⟩], 5000⟩) := by
  have hposted : ((adminGetLogPage ⟨1, 0⟩ .sanitize 0 0 0).executed (.failed 109) 0
      ⟨1, [⟨1, 0⟩], 5000⟩).posted = [⟨.noError, .span (zeros sizeofSanitizeLogPage)⟩] := rfl
  refine ⟨hposted, fun hall => ?_⟩
  refine not_faithful_success ?_ (hall ⟨.noError, .span (zeros sizeofSanitizeLogPage)⟩ ?_)
  · exact ⟨⟨.getLogSanitize ⟨1, 0⟩, 1, .failed 109⟩, List.mem_singleton_self _, by decide⟩
  · rw [hposted]
    exact List.mem_singleton_self _

end MiRequest
end NvmeManager
