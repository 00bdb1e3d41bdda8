import NvmeManager.Mi.Commands

/-!
# The operations of a closure

* `MiRequest.Issues` : the libnvme commands that a request can make; `MiRequest.Performs` : the operations of its closure;
  `uses_task` : it performs no others;
* `Closure.Calls P` : every libnvme command that a closure can make satisfies `P`; `Closure.Calls.made` says so of those
  that it has made, and `Closure.Calls.scans` counts the scans of the endpoint, for a closure without one;
* `calls_task` : so it is for the commands of a request; `scans_miScanCtrl` : the scan counts itself.
-/

namespace NvmeManager
open Closure

namespace MiRequest

def ReadsLog (lid : LogLid) (lsp : UInt8) : Prop :=
  match lid with
  | .telemetryHost => lsp = NVMeMi.lspCreate ∨ lsp = NVMeMi.lspRetain
  | .other _ => False
  | _ => True

/-- A log page that the closure does not know, for which it sets `errno` by itself. -/
def SetsErrno : MiRequest → Prop
  | adminGetLogPage _ lid _ lsp _ => ¬ ReadsLog lid lsp
  | _ => False

/-- A transfer, whose closure sets the timeout. -/
def SetsTimeout : MiRequest → Prop
  | adminXfer .. => True
  | _ => False

def IssuesLog (ctrl : Ctrl) (nsid : UInt32) : LogLid → NvmeCall → Prop
  | .error, .getLogError h _ => h = ctrl
  | .smart, .getNsidLog h lid n len => h = ctrl ∧ lid = .smart ∧ n = nsid ∧ len = sizeofSmartLog - sizeofSmartRsvd232
  | .fwSlot, .getLogFwSlot h => h = ctrl
  | .cmdEffects, .getLogCmdEffects h => h = ctrl
  | .deviceSelfTest, .getLogDeviceSelfTest h => h = ctrl
  | .changedNs, .getLogChangedNsList h => h = ctrl
  | .telemetryHost, .getLogCreateTelemetryHost h => h = ctrl
  | .telemetryHost, .getLogTelemetryHost h offset _ => h = ctrl ∧ offset = 0
  | .telemetryCtrl, .getLogTelemetryCtrl h offset _ => h = ctrl ∧ offset = 0
  | .reservation, .getLogReservation h => h = ctrl
  | .sanitize, .getLogSanitize h => h = ctrl
  | _, _ => False

/-- The commands that a request can make. -/
def Issues : MiRequest → NvmeCall → Prop
  | miPCIePortInformation, c => c = .readMiDataSubsys ∨ ∃ port, c = .readMiDataPort port
  | miSubsystemHealthStatusPoll, c => c = .subsystemHealthStatusPoll true
  | miScanCtrl, c => c = .scanEp true
  | adminIdentify ctrl cns nsid cntid _, c =>
    c = .identify ctrl cns nsid cntid ∨ ∃ size, c = .identifyPartial ctrl cns nsid cntid 0 size
  | adminSanitize ctrl sanact owpass owpattern, c => c = .sanitizeNvm ctrl sanact owpass true owpattern
  | adminGetLogPage ctrl lid nsid _ _, c => IssuesLog ctrl nsid lid c
  | adminXfer ctrl admin_req data _, c => ∃ offset size, c = .adminXfer ctrl (admin_req ++ data) offset size
  | adminFwCommit ctrl action slot bpid, c => c = .fwCommit ctrl action slot bpid
  | adminSecuritySend ctrl proto proto_specific data, c =>
    c = .securitySend ctrl proto (proto_specific &&& 0xff).toUInt8 (proto_specific >>> 8).toUInt8 data
  | adminSecurityReceive ctrl proto proto_specific _, c =>
    ∃ len, c = .securityRecv ctrl proto (proto_specific &&& 0xff).toUInt8 (proto_specific >>> 8).toUInt8 len

def Performs (r : MiRequest) : Op → Prop
  | .nvme c => r.Issues c
  | .setErrno _ => r.SetsErrno
  | .getTimeout | .setTimeout _ => r.SetsTimeout
  | .forEachCtrl | .errno | .ioPost _ => True

section
variable {r : MiRequest}

theorem uses_nvme {c : NvmeCall} (hc : r.Issues c) : (nvme c).Uses r.Performs := ⟨hc, fun _ => trivial⟩

theorem uses_errno : Closure.errno.Uses r.Performs := ⟨trivial, fun _ => trivial⟩

theorem uses_ioPost (reply : Reply) : (ioPost reply).Uses r.Performs := ⟨trivial, fun _ => trivial⟩

theorem uses_reportResult (rc : Int) (empty : Payload) {success : Closure Payload} (hs : success.Uses r.Performs) :
    (NVMeMi.reportResult rc empty success).Uses r.Performs := by
  refine .ite ?_ (.ite ?_ ?_)
  · exact .bind uses_errno fun _ => uses_ioPost _
  · exact uses_ioPost _
  · exact .bind hs fun _ => uses_ioPost _

end

theorem uses_readPorts (left i : Nat) : (NVMeMi.readPorts left i).Uses miPCIePortInformation.Performs := by
  induction left generalizing i with
  | zero =>
      refine .bind (uses_nvme (.inr ⟨i, rfl⟩)) fun a => .ite (uses_ioPost _) (.ite ?_ ?_)
      · exact uses_ioPost _
      · exact uses_ioPost _
  | succ left ih =>
      refine .bind (uses_nvme (.inr ⟨i, rfl⟩)) fun a => .ite (uses_ioPost _) (.ite ?_ ?_)
      · exact uses_ioPost _
      · exact ih (i + 1)

theorem uses_getTelemetryLog {r : MiRequest} {ctrl : Ctrl} {host create : Bool}
    (hcreate : (host && create) = true → r.Issues (.getLogCreateTelemetryHost ctrl))
    (hread : ∀ size, r.Issues (NVMeMi.telemetryCall ctrl host 0 size)) :
    (NVMeMi.getTelemetryLog ctrl host create).Uses r.Performs := by
  unfold NVMeMi.getTelemetryLog
  by_cases hcreated : (host && create) = true
  · rw [if_pos hcreated]
    exact .bind (uses_nvme (hcreate hcreated)) fun _ => Prog.uses_pure _ _
  · rw [if_neg hcreated]
    refine .bind (uses_nvme (hread _)) fun a => .ite (Prog.uses_pure _ _) ?_
    exact .bind (uses_nvme (hread _)) fun _ => Prog.uses_pure _ _

theorem uses_readLog (ctrl : Ctrl) (lid : LogLid) (nsid : UInt32) (lsp : UInt8) (lsi : UInt16) :
    (NVMeMi.readLog ctrl lid nsid lsp).Uses (adminGetLogPage ctrl lid nsid lsp lsi).Performs := by
  have hunknown (h : ¬ ReadsLog lid lsp) : (do setErrno 22; pure (-1, []) : Closure (Int × List UInt8)).Uses
      (adminGetLogPage ctrl lid nsid lsp lsi).Performs := ⟨h, fun _ => trivial⟩
  cases lid with
  | other => exact hunknown id
  | telemetryHost =>
      unfold NVMeMi.readLog
      by_cases hcreate : lsp = NVMeMi.lspCreate
      · rw [if_pos hcreate]
        exact uses_getTelemetryLog (fun _ => rfl) fun _ => ⟨rfl, rfl⟩
      · rw [if_neg hcreate]
        by_cases hretain : lsp = NVMeMi.lspRetain
        · rw [if_pos hretain]
          exact uses_getTelemetryLog (fun _ => rfl) fun _ => ⟨rfl, rfl⟩
        · rw [if_neg hretain]
          exact hunknown (not_or.mpr ⟨hcreate, hretain⟩)
  | telemetryCtrl =>
      change (NVMeMi.getTelemetryLog ctrl false false).Uses _
      exact uses_getTelemetryLog nofun fun _ => ⟨rfl, rfl⟩
  | smart => exact .bind (uses_nvme ⟨rfl, rfl, rfl, rfl⟩) fun _ => Prog.uses_pure _ _
  | error | fwSlot | cmdEffects | deviceSelfTest | changedNs | reservation | sanitize =>
      exact .bind (uses_nvme (Eq.refl ctrl)) fun _ => Prog.uses_pure _ _

/-- The closure of a request performs its operations, and no others. -/
theorem uses_task (r : MiRequest) : r.task.Uses r.Performs := by
  cases r with
  | miPCIePortInformation =>
      refine .bind (uses_nvme (.inl rfl)) fun a => .ite ?_ (.ite ?_ ?_)
      · exact .bind uses_errno fun _ => uses_ioPost _
      · exact uses_ioPost _
      · exact uses_readPorts _ _
  | miSubsystemHealthStatusPoll =>
      exact .bind (uses_nvme rfl) fun _ => uses_reportResult _ _ (Prog.uses_pure _ _)
  | miScanCtrl => exact .bind (uses_nvme rfl) fun _ => uses_reportResult _ _ ⟨trivial, fun _ => trivial⟩
  | adminIdentify =>
      refine .ite ?_ ?_
      · exact .bind (uses_nvme (.inr ⟨_, rfl⟩)) fun _ => uses_reportResult _ _ (Prog.uses_pure _ _)
      · exact .bind (uses_nvme (.inl rfl)) fun _ => uses_reportResult _ _ (Prog.uses_pure _ _)
  | adminSanitize => exact .bind (uses_nvme rfl) fun _ => uses_reportResult _ _ (Prog.uses_pure _ _)
  | adminGetLogPage =>
      refine .bind (uses_readLog _ _ _ _ _) fun _ => .ite ?_ (.ite ?_ ?_)
      · exact .bind uses_errno fun _ => uses_ioPost _
      · exact .bind (uses_ioPost _) fun _ => uses_ioPost _
      · exact uses_ioPost _
  | adminXfer ctrl admin_req data timeout_ms =>
      let r := adminXfer ctrl admin_req data timeout_ms
      have hgets : nvme_mi_ep_get_timeout.Uses r.Performs := ⟨trivial, fun _ => trivial⟩
      have hsets (ms : Nat) : (nvme_mi_ep_set_timeout ms).Uses r.Performs := ⟨trivial, fun _ => trivial⟩
      refine .bind hgets fun _ => .bind (hsets _) fun _ => .bind (uses_nvme ⟨_, _, rfl⟩) fun _ => .bind (hsets _) fun _ =>
        .ite ?_ ?_
      · exact .bind uses_errno fun _ => uses_ioPost _
      · exact uses_ioPost _
  | adminFwCommit =>
      refine .bind (uses_nvme rfl) fun a => .ite ?_ (.ite ?_ ?_)
      · exact .bind uses_errno fun _ => uses_ioPost _
      · exact uses_ioPost _
      · exact uses_ioPost _
  | adminSecuritySend => exact .bind (uses_nvme rfl) fun _ => .bind uses_errno fun _ => uses_ioPost _
  | adminSecurityReceive =>
      refine .bind (uses_nvme ⟨_, rfl⟩) fun a => .ite (uses_ioPost _) ?_
      exact .bind uses_errno fun _ => uses_ioPost _

end MiRequest

/-! ## The commands that are made -/

section
variable {α : Type} {P : NvmeCall → Prop}

/-- Every command the closure can make satisfies `P`. -/
def Closure.Calls (P : NvmeCall → Prop) (p : Closure α) : Prop := p.Uses fun o => ∀ c, o = .nvme c → P c

theorem calls_task {r : MiRequest} (hP : ∀ c, r.Issues c → P c) : r.task.Calls P := by
  refine r.uses_task.mono fun o ho c => ?_
  rintro rfl
  exact hP c ho

theorem Closure.Calls.made {p : Closure α} (hp : p.Calls P) (lib : Libnvme) {t : Thread}
    (ht : ∀ m ∈ t.made, P m.call) : ∀ m ∈ (p.exec lib t).2.made, P m.call := by
  refine Prog.run_invariant (serve lib) (fun s => ∀ m ∈ s.made, P m.call) ?_ hp ht
  intro o s ho hs
  cases o with
  | nvme c =>
      intro m hm
      rcases List.mem_append.mp hm with hm | hm
      · exact hs m hm
      · obtain rfl := List.mem_singleton.mp hm
        exact ho c rfl
  | forEachCtrl | errno | setErrno | getTimeout | setTimeout | ioPost => exact hs

/-- The number of scans that the endpoint of a thread has seen, now and before each command. -/
structure Thread.Scans (scans : Nat) (t : Thread) : Prop where
  ep : t.ep.scans = scans
  made : ∀ m ∈ t.made, m.scans = scans

theorem Closure.Calls.scans {p : Closure α} (hp : p.Calls P) (hP : ∀ c, P c → ∀ force, c ≠ .scanEp force)
    (lib : Libnvme) {scans : Nat} {t : Thread} (ht : t.Scans scans) : (p.exec lib t).2.Scans scans := by
  refine Prog.run_invariant (serve lib) (Thread.Scans scans) ?_ hp ht
  intro o s ho hs
  cases o with
  | nvme c =>
      refine ⟨?_, ?_⟩
      · change (s.ep.after c _).scans = scans
        cases c with
        | scanEp force => exact absurd rfl (hP _ (ho _ rfl) force)
        | _ => exact hs.ep
      · intro m hm
        rcases List.mem_append.mp hm with hm | hm
        · exact hs.made m hm
        · obtain rfl := List.mem_singleton.mp hm
          exact hs.ep
  | forEachCtrl | errno | setErrno | getTimeout | setTimeout | ioPost => exact ⟨hs.ep, hs.made⟩

end

namespace NVMeMi

theorem scans_miScanCtrl (lib : Libnvme) (errno : Int) (ep : Endpoint) :
    (miScanCtrl.exec lib (.start errno ep)).2.ep.scans = ep.scans + 1 := by
  unfold miScanCtrl reportResult
  rw [exec_bind]
  simp only [exec_nvme, Thread.made_start, List.length_nil]
  rcases Int.lt_trichotomy (lib 0 (.scanEp true)).rc 0 with h | h | h
  · simp [h, Endpoint.after]
  · simp [h, Endpoint.after]
  · simp [h, Int.not_lt.mpr (Int.le_of_lt h), Endpoint.after]

end NVMeMi
end NvmeManager
