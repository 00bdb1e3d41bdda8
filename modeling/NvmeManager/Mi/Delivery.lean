import NvmeManager.Mi.Commands

/-!
# The runs of a request's callback

* `Silent`, `PostsOnce` : a closure that never posts the callback, and one that posts it exactly once, whatever the
  drive answers; `PostsOnce.bind` composes them, and all closures but that of `adminGetLogPage` are `PostsOnce`;
* `adminGetLogPage_posted` : what the closure of `adminGetLogPage` posts, from the outcome of its switch;
* `MiRequest.deliveries` : the runs of the callback of a request, each in the call or from the main loop;
* `delivered_once_iff` : the callback is run exactly once and from the main loop, unless a log read ends in a positive
  status or a security receive asks for more than `maxNVMeMILength` bytes.
-/

namespace NvmeManager
open Closure

/-! ## Closures that post once -/

section Posts
variable {α β : Type}

def Closure.Silent (p : Closure α) : Prop := p.Uses fun o => ∀ r, o ≠ .ioPost r

def Closure.PostsOnce (p : Closure α) : Prop :=
  ∀ lib t, ∃ r, (p.exec lib t).2.posted = t.posted ++ [r]

theorem silent_nvme (c : NvmeCall) : (nvme c).Silent := ⟨by simp, fun _ => trivial⟩

theorem silent_errno : errno.Silent := ⟨by simp, fun _ => trivial⟩

theorem silent_setErrno (e : Int) : (setErrno e).Silent := ⟨by simp, fun _ => trivial⟩

theorem silent_forEachCtrl : nvme_mi_for_each_ctrl.Silent := ⟨by simp, fun _ => trivial⟩

theorem silent_getTimeout : nvme_mi_ep_get_timeout.Silent := ⟨by simp, fun _ => trivial⟩

theorem silent_setTimeout (ms : Nat) : (nvme_mi_ep_set_timeout ms).Silent := ⟨by simp, fun _ => trivial⟩

theorem silent_pure (a : α) : (pure a : Closure α).Silent := trivial

theorem Closure.Silent.posted {p : Closure α} (hp : p.Silent) (lib : Libnvme) (t : Thread) :
    (p.exec lib t).2.posted = t.posted := by
  refine Prog.run_invariant (serve lib) (fun s => s.posted = t.posted) ?_ hp rfl
  intro o s ho hs
  cases o with
  | ioPost r => exact absurd rfl (ho r)
  | _ => exact hs

theorem postsOnce_ioPost (r : Reply) : (ioPost r).PostsOnce := fun _ _ => ⟨r, rfl⟩

theorem Closure.PostsOnce.bind {p : Closure α} {f : α → Closure β} (hp : p.Silent)
    (hf : ∀ a, (f a).PostsOnce) : (p >>= f).PostsOnce := by
  intro lib t
  obtain ⟨r, hr⟩ := hf (p.exec lib t).1 lib (p.exec lib t).2
  refine ⟨r, ?_⟩
  rw [exec_bind, hr, hp.posted lib t]

theorem Closure.PostsOnce.ite {c : Prop} [Decidable c] {p q : Closure α} (hp : p.PostsOnce)
    (hq : q.PostsOnce) : (if c then p else q).PostsOnce := by
  split
  · exact hp
  · exact hq

end Posts

/-! ## The closures of the requests -/

namespace NVMeMi

theorem postsOnce_reportResult (rc : Int) (empty : Payload) {success : Closure Payload} (hs : success.Silent) :
    (reportResult rc empty success).PostsOnce := by
  refine .ite ?_ (.ite ?_ ?_)
  · exact .bind silent_errno fun _ => postsOnce_ioPost _
  · exact postsOnce_ioPost _
  · exact .bind hs fun _ => postsOnce_ioPost _

theorem postsOnce_readPorts (left i : Nat) : (readPorts left i).PostsOnce := by
  induction left generalizing i with
  | zero =>
      refine .bind (silent_nvme _) fun a => .ite (postsOnce_ioPost _) (.ite ?_ ?_)
      · exact postsOnce_ioPost _
      · exact postsOnce_ioPost _
  | succ left ih =>
      refine .bind (silent_nvme _) fun a => .ite (postsOnce_ioPost _) (.ite ?_ ?_)
      · exact postsOnce_ioPost _
      · exact ih (i + 1)

theorem postsOnce_miPCIePortInformation : miPCIePortInformation.PostsOnce := by
  refine .bind (silent_nvme _) fun a => .ite ?_ (.ite ?_ ?_)
  · exact .bind silent_errno fun _ => postsOnce_ioPost _
  · exact postsOnce_ioPost _
  · exact postsOnce_readPorts _ _

theorem postsOnce_miSubsystemHealthStatusPoll : miSubsystemHealthStatusPoll.PostsOnce :=
  .bind (silent_nvme _) fun _ => postsOnce_reportResult _ _ (silent_pure _)

theorem postsOnce_miScanCtrl : miScanCtrl.PostsOnce :=
  .bind (silent_nvme _) fun _ =>
    postsOnce_reportResult _ _ (Prog.Uses.bind silent_forEachCtrl fun _ => silent_pure _)

theorem postsOnce_adminIdentify (ctrl : Ctrl) (cns : IdentifyCns) (nsid : UInt32) (cntid read_length : UInt16) :
    (adminIdentify ctrl cns nsid cntid read_length).PostsOnce := by
  refine .ite ?_ ?_
  · exact .bind (silent_nvme _) fun _ => postsOnce_reportResult _ _ (silent_pure _)
  · exact .bind (silent_nvme _) fun _ => postsOnce_reportResult _ _ (silent_pure _)

theorem postsOnce_adminSanitize (ctrl : Ctrl) (sanact : Sanact) (owpass : UInt8) (owpattern : UInt32) :
    (adminSanitize ctrl sanact owpass owpattern).PostsOnce :=
  .bind (silent_nvme _) fun _ => postsOnce_reportResult _ _ (silent_pure _)

theorem postsOnce_adminXfer (ctrl : Ctrl) (req : List UInt8) (timeout_ms : Nat) :
    (adminXfer ctrl req timeout_ms).PostsOnce := by
  refine .bind silent_getTimeout fun timeout => .bind (silent_setTimeout _) fun _ => .bind (silent_nvme _) fun a =>
    .bind (silent_setTimeout _) fun _ => .ite ?_ ?_
  · exact .bind silent_errno fun _ => postsOnce_ioPost _
  · exact postsOnce_ioPost _

theorem postsOnce_adminFwCommit (ctrl : Ctrl) (action slot : UInt8) (bpid : Bool) :
    (adminFwCommit ctrl action slot bpid).PostsOnce := by
  refine .bind (silent_nvme _) fun a => .ite ?_ (.ite ?_ ?_)
  · exact .bind silent_errno fun _ => postsOnce_ioPost _
  · exact postsOnce_ioPost _
  · exact postsOnce_ioPost _

theorem postsOnce_adminSecuritySend (ctrl : Ctrl) (proto : UInt8) (spec : UInt16) (data : List UInt8) :
    (adminSecuritySend ctrl proto spec data).PostsOnce :=
  .bind (silent_nvme _) fun _ => .bind silent_errno fun _ => postsOnce_ioPost _

theorem postsOnce_adminSecurityReceive (ctrl : Ctrl) (proto : UInt8) (spec : UInt16) (len : UInt32) :
    (adminSecurityReceive ctrl proto spec len).PostsOnce := by
  refine .bind (silent_nvme _) fun a => .ite ?_ ?_
  · exact postsOnce_ioPost _
  · exact .bind silent_errno fun _ => postsOnce_ioPost _

/-! ## Log pages -/

theorem silent_getTelemetryLog (ctrl : Ctrl) (host create : Bool) : (getTelemetryLog ctrl host create).Silent := by
  refine .ite ?_ ?_
  · exact .bind (silent_nvme _) fun _ => silent_pure _
  · refine .bind (silent_nvme _) fun a => .ite (silent_pure _) ?_
    exact .bind (silent_nvme _) fun _ => silent_pure _

theorem silent_readLog (ctrl : Ctrl) (lid : LogLid) (nsid : UInt32) (lsp : UInt8) :
    (readLog ctrl lid nsid lsp).Silent := by
  cases lid with
  | telemetryHost =>
      refine .ite (silent_getTelemetryLog ..) (.ite (silent_getTelemetryLog ..) ?_)
      exact .bind (silent_setErrno _) fun _ => silent_pure _
  | telemetryCtrl => exact silent_getTelemetryLog ctrl false false
  | other v => exact .bind (silent_setErrno _) fun _ => silent_pure _
  | _ => exact .bind (silent_nvme _) fun _ => silent_pure _

/-- What is posted after the switch left `rc` and `data`, on a thread with the given `errno`. -/
def logReplies (log : Int × List UInt8) (errno : Int) : List Reply :=
  if log.1 < 0 then [⟨.ofErrno errno, .span []⟩]
  else (if log.1 > 0 then [⟨.bad_message, .span []⟩] else []) ++ [⟨.noError, .span log.2⟩]

theorem adminGetLogPage_posted (ctrl : Ctrl) (lid : LogLid) (nsid : UInt32) (lsp : UInt8) (lsi : UInt16)
    (lib : Libnvme) (t : Thread) :
    ((adminGetLogPage ctrl lid nsid lsp lsi).exec lib t).2.posted =
      t.posted ++ logReplies ((readLog ctrl lid nsid lsp).exec lib t).1
        ((readLog ctrl lid nsid lsp).exec lib t).2.errno := by
  have hsilent := (silent_readLog ctrl lid nsid lsp).posted lib t
  unfold adminGetLogPage logReplies
  rw [exec_bind]
  generalize (readLog ctrl lid nsid lsp).exec lib t = log at hsilent
  rcases Int.lt_trichotomy log.1.1 0 with h | h | h
  · simp [h, hsilent]
  · simp [h, hsilent]
  · simp [h, hsilent, Int.not_lt.mpr (Int.le_of_lt h)]

/-! ## The status of a log read -/

/-- A telemetry log is answered with a positive status: for the header, or for the whole log after it. -/
def TelemetryStatus (lib : Libnvme) (ctrl : Ctrl) (host : Bool) : Prop :=
  let a := lib 0 (telemetryCall ctrl host 0 sizeofTelemetryLog)
  0 < a.rc ∨ a.rc = 0 ∧
    0 < (lib 1 (telemetryCall ctrl host 0
      (telemetrySize (a.fill sizeofTelemetryLog (zeros sizeofTelemetryLog))))).rc

/-- The drive answers the read of a log page, other than the reservation and the sanitize log, with a positive status
(an error of the NVMe-MI or NVMe layer, not of the transport). -/
def LogStatus (lib : Libnvme) (ctrl : Ctrl) (lid : LogLid) (nsid : UInt32) (lsp : UInt8) : Prop :=
  match lid with
  | .error => 0 < (lib 0 (.getLogError ctrl (nvme_mi_xfer_size / sizeofErrorLogPage))).rc
  | .smart => 0 < (lib 0 (.getNsidLog ctrl lid nsid (sizeofSmartLog - sizeofSmartRsvd232))).rc
  | .fwSlot => 0 < (lib 0 (.getLogFwSlot ctrl)).rc
  | .cmdEffects => 0 < (lib 0 (.getLogCmdEffects ctrl)).rc
  | .deviceSelfTest => 0 < (lib 0 (.getLogDeviceSelfTest ctrl)).rc
  | .changedNs => 0 < (lib 0 (.getLogChangedNsList ctrl)).rc
  | .telemetryHost =>
    if lsp = lspCreate then 0 < (lib 0 (.getLogCreateTelemetryHost ctrl)).rc
    else lsp = lspRetain ∧ TelemetryStatus lib ctrl true
  | .telemetryCtrl => TelemetryStatus lib ctrl false
  | .reservation | .sanitize | .other _ => False

theorem getTelemetryLog_pos_iff (lib : Libnvme) (errno : Int) (ep : Endpoint) (ctrl : Ctrl) (host : Bool) :
    0 < ((getTelemetryLog ctrl host false).exec lib (.start errno ep)).1.1 ↔ TelemetryStatus lib ctrl host := by
  unfold getTelemetryLog TelemetryStatus
  simp only [Bool.and_false, Bool.false_eq_true, if_false, exec_bind, exec_nvme, Thread.made_start, List.length_nil]
  by_cases h : (lib 0 (telemetryCall ctrl host 0 sizeofTelemetryLog)).rc = 0
  · simp [h]
  · simp [h]

/-- The switch leaves a positive `rc` exactly when the drive answered with a status. -/
theorem readLog_pos_iff (lib : Libnvme) (errno : Int) (ep : Endpoint) (ctrl : Ctrl) (lid : LogLid) (nsid : UInt32)
    (lsp : UInt8) :
    0 < ((readLog ctrl lid nsid lsp).exec lib (.start errno ep)).1.1 ↔ LogStatus lib ctrl lid nsid lsp := by
  cases lid with
  | telemetryHost =>
      unfold readLog LogStatus
      by_cases hc : lsp = lspCreate
      · simp [hc, getTelemetryLog]
      · by_cases hr : lsp = lspRetain
        · simpa [hc, hr, show lspRetain ≠ lspCreate by decide] using getTelemetryLog_pos_iff lib errno ep ctrl true
        · simp [hc, hr]
  | telemetryCtrl => exact getTelemetryLog_pos_iff lib errno ep ctrl false
  | _ => simp [readLog, LogStatus, readLogPage]

end NVMeMi

/-! ## Requests -/

/-- Where a callback is run. -/
inductive Place
  | inCall
  | mainLoop
  deriving DecidableEq, Repr

/-- One run of a request's callback. -/
structure Delivery where
  place : Place
  reply : Reply
  deriving DecidableEq, Repr

namespace MiRequest

/-- The runs of a request's callback, on an interface with a valid or a null endpoint, whatever `errno` its thread was
left with. A posted callback is run by the main loop, which runs nothing before the handler that made the request has
returned. -/
def deliveries (r : MiRequest) (lib : Libnvme) (errno : Int) (nvmeEP : Option Endpoint) : List Delivery :=
  match r.submit nvmeEP.isSome with
  | .called reply => [⟨.inCall, reply⟩]
  | .posted reply => [⟨.mainLoop, reply⟩]
  | .worker c | .loop c => (c.exec lib (.start errno (nvmeEP.getD default))).2.posted.map (⟨.mainLoop, ·⟩)

/-- The callback is run exactly once, and from the main loop. -/
def DeliveredOnce (r : MiRequest) (lib : Libnvme) (errno : Int) (nvmeEP : Option Endpoint) : Prop :=
  ∃ reply, r.deliveries lib errno nvmeEP = [⟨.mainLoop, reply⟩]

/-- The requests whose callback goes wrong: a log read the drive answers with a status, and a security receive of more
than `maxNVMeMILength` bytes. -/
def Misdelivered (r : MiRequest) (lib : Libnvme) (nvmeEP : Option Endpoint) : Prop :=
  match r with
  | adminGetLogPage ctrl lid nsid lsp _ => nvmeEP.isSome ∧ NVMeMi.LogStatus lib ctrl lid nsid lsp
  | adminSecurityReceive _ _ _ transfer_length => transfer_length.toNat > NVMeMi.maxNVMeMILength
  | _ => False

section
variable {r : MiRequest} {lib : Libnvme} {errno : Int} {nvmeEP : Option Endpoint}

theorem deliveredOnce_of_posted {reply : Reply} (h : r.submit nvmeEP.isSome = .posted reply) :
    r.DeliveredOnce lib errno nvmeEP :=
  ⟨reply, by simp [deliveries, h]⟩

theorem deliveredOnce_of_postsOnce {c : Closure Unit}
    (h : r.submit nvmeEP.isSome = .worker c ∨ r.submit nvmeEP.isSome = .loop c) (hc : c.PostsOnce) :
    r.DeliveredOnce lib errno nvmeEP := by
  obtain ⟨reply, hreply⟩ := hc lib (.start errno (nvmeEP.getD default))
  refine ⟨reply, ?_⟩
  rcases h with h | h
  · simp [deliveries, h, hreply]
  · simp [deliveries, h, hreply]

/-- A request that tests the endpoint first and then posts a closure that posts once. -/
theorem deliveredOnce_of_guarded (hc : r.task.PostsOnce)
    (h : r.submit nvmeEP.isSome =
        if !nvmeEP.isSome then .posted ⟨.no_such_device, r.noPayload⟩ else .worker r.task) :
    r.DeliveredOnce lib errno nvmeEP := by
  cases nvmeEP with
  | some ep => exact deliveredOnce_of_postsOnce (.inl h) hc
  | none => exact deliveredOnce_of_posted h

end

theorem deliveries_adminGetLogPage (lib : Libnvme) (errno : Int) (ep : Endpoint) (ctrl : Ctrl) (lid : LogLid)
    (nsid : UInt32) (lsp : UInt8) (lsi : UInt16) :
    (adminGetLogPage ctrl lid nsid lsp lsi).deliveries lib errno (some ep) =
      (NVMeMi.logReplies ((NVMeMi.readLog ctrl lid nsid lsp).exec lib (.start errno ep)).1
        ((NVMeMi.readLog ctrl lid nsid lsp).exec lib (.start errno ep)).2.errno).map (⟨.mainLoop, ·⟩) := by
  simp [deliveries, submit, task, NVMeMi.adminGetLogPage_posted]

theorem deliveredOnce_adminGetLogPage_iff (lib : Libnvme) (errno : Int) (ep : Endpoint) (ctrl : Ctrl) (lid : LogLid)
    (nsid : UInt32) (lsp : UInt8) (lsi : UInt16) :
    (adminGetLogPage ctrl lid nsid lsp lsi).DeliveredOnce lib errno (some ep) ↔
      ¬ NVMeMi.LogStatus lib ctrl lid nsid lsp := by
  unfold DeliveredOnce
  rw [deliveries_adminGetLogPage, ← NVMeMi.readLog_pos_iff lib errno ep]
  generalize (NVMeMi.readLog ctrl lid nsid lsp).exec lib (.start errno ep) = log
  unfold NVMeMi.logReplies
  rcases Int.lt_trichotomy log.1.1 0 with h | h | h
  · simp [h, Int.not_lt.mpr (Int.le_of_lt h)]
  · simp [h]
  · simp [h, Int.not_lt.mpr (Int.le_of_lt h)]

/-- **Callbacks.** While the worker accepts posts, the callback of a request is run exactly once and from the main loop
if and only if the request is not one of the two kinds of `Misdelivered`. -/
theorem delivered_once_iff (r : MiRequest) (lib : Libnvme) (errno : Int) (nvmeEP : Option Endpoint) :
    r.DeliveredOnce lib errno nvmeEP ↔ ¬ r.Misdelivered lib nvmeEP := by
  cases r with
  | miPCIePortInformation =>
      exact iff_of_true (deliveredOnce_of_guarded NVMeMi.postsOnce_miPCIePortInformation rfl) id
  | miSubsystemHealthStatusPoll =>
      exact iff_of_true (deliveredOnce_of_guarded NVMeMi.postsOnce_miSubsystemHealthStatusPoll rfl) id
  | miScanCtrl => exact iff_of_true (deliveredOnce_of_guarded NVMeMi.postsOnce_miScanCtrl rfl) id
  | adminIdentify ctrl cns nsid cntid len =>
      exact iff_of_true (deliveredOnce_of_guarded (NVMeMi.postsOnce_adminIdentify _ _ _ _ _) rfl) id
  | adminSanitize ctrl sanact owpass owpattern =>
      exact iff_of_true (deliveredOnce_of_guarded (NVMeMi.postsOnce_adminSanitize _ _ _ _) rfl) id
  | adminXfer ctrl req data timeout_ms =>
      exact iff_of_true (deliveredOnce_of_guarded (NVMeMi.postsOnce_adminXfer _ _ _) rfl) id
  | adminFwCommit ctrl action slot bpid =>
      refine iff_of_true ?_ id
      cases nvmeEP with
      | none => exact deliveredOnce_of_posted rfl
      | some ep => exact deliveredOnce_of_postsOnce (.inr rfl) (NVMeMi.postsOnce_adminFwCommit _ _ _ _)
  | adminSecuritySend ctrl proto spec data =>
      exact iff_of_true (deliveredOnce_of_postsOnce (.inl rfl) (NVMeMi.postsOnce_adminSecuritySend _ _ _ _)) id
  | adminSecurityReceive ctrl proto spec len =>
      by_cases hlen : len.toNat > NVMeMi.maxNVMeMILength
      · refine iff_of_false ?_ (not_not_intro hlen)
        rintro ⟨reply, h⟩
        simp [deliveries, submit, hlen] at h
      · exact iff_of_true (deliveredOnce_of_postsOnce (.inl (by simp [submit, hlen, task]))
          (NVMeMi.postsOnce_adminSecurityReceive ctrl proto spec len)) hlen
  | adminGetLogPage ctrl lid nsid lsp lsi =>
      cases nvmeEP with
      | none => exact iff_of_true (deliveredOnce_of_posted rfl) (by simp [Misdelivered])
      | some ep =>
          rw [deliveredOnce_adminGetLogPage_iff]
          simp [Misdelivered]

end MiRequest

/-- A drive that answers the SMART read with status 1: the callback is run twice. -/
theorem smart_status_delivered_twice :
    ¬ (MiRequest.adminGetLogPage ⟨1, 0⟩ .smart 0xFFFFFFFF 0 0).DeliveredOnce
      (.status 0) 0 (some ⟨1, [⟨1, 0⟩], 5000⟩) := by
  rintro ⟨reply, h⟩
  have htwice : ((MiRequest.adminGetLogPage ⟨1, 0⟩ .smart 0xFFFFFFFF 0 0).deliveries
      (.status 0) 0 (some ⟨1, [⟨1, 0⟩], 5000⟩)).length = 2 := by decide
  rw [h] at htwice
  cases htwice

end NvmeManager
