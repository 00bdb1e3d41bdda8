import Mathlib.Data.List.Induction
import NvmeManager.Device.Requests
import NvmeManager.Mi.Ports

/-!
# What a reply says has been said by the drive

* `Made.Lists` : a successful scan that found a handle;
* `Tells` : what is in a reply without an error is in the answer to a successful command of its kind;
* `tells_of_posted` : so it is for the scan, the identify, the port information and the health. A read of the SMART log or
  of the sanitize log is left out: its reply may have no error though the command failed.
-/

namespace NvmeManager

/-! ## Commands -/

/-- A successful scan that found the handle. -/
def Made.Lists (m : Made) (h : Ctrl) : Prop :=
  m.call = .scanEp true ∧ m.ans.rc = 0 ∧ h ∈ m.ans.out.handles.map (⟨m.scans + 1, ·⟩)

def NvmeCall.isIdentify : NvmeCall → Bool
  | .identify .. | .identifyPartial .. => true
  | _ => false

/-- What a reply says is in the answer to a command that has succeeded. -/
def Tells (made : List Made) (c : Command) (r : Reply) : Prop :=
  match c with
  | .scan => ∀ h ∈ r.payload.ctrlList, ∃ m ∈ made, m.Lists h
  | .identify _ => ∃ m ∈ made, m.call.isIdentify = true ∧ m.ans.rc = 0 ∧ m.write .null = .span r.payload.bytes
  | .portInformation =>
    ∃ m ∈ made, (∃ i, m.call = .readMiDataPort i) ∧ m.ans.rc = 0 ∧ m.ans.out.port = r.payload.portInfo
  | .health =>
    ∃ m ∈ made, m.call = .subsystemHealthStatusPoll true ∧ m.ans.rc = 0 ∧ m.ans.out.health = r.payload.healthStatus
  | .smart _ | .sanitizeLog _ | .sanitize .. => True

theorem Tells.append {made : List Made} {c : Command} {r : Reply} (h : Tells made c r) (rest : List Made) :
    Tells (made ++ rest) c r := by
  cases c with
  | scan =>
      intro handle hh
      obtain ⟨m, hm, hlists⟩ := h handle hh
      exact ⟨m, List.mem_append_left _ hm, hlists⟩
  | identify | portInformation | health =>
      obtain ⟨m, hm, htold⟩ := h
      exact ⟨m, List.mem_append_left _ hm, htold⟩
  | smart | sanitizeLog | sanitize => trivial

theorem exists_port {made : List Made}
    (hcalls : ∀ m ∈ made, m.call = .readMiDataSubsys ∨ ∃ i, m.call = .readMiDataPort i) {port : PortInfo}
    (h : written made = .port port) : ∃ m ∈ made, (∃ i, m.call = .readMiDataPort i) ∧ m.ans.out.port = port := by
  induction made using List.reverseRecOn with
  | nil => cases h
  | append_singleton made m ih =>
      rw [written_append] at h
      rcases hcalls m (List.mem_append_right _ (List.mem_singleton_self m)) with hcall | ⟨i, hcall⟩
      · have hbefore : written made = .port port := by
          unfold Made.write at h
          rw [hcall] at h
          exact h
        obtain ⟨m', hm', hport⟩ := ih (fun m' hm' => hcalls m' (List.mem_append_left _ hm')) hbefore
        exact ⟨m', List.mem_append_left _ hm', hport⟩
      · unfold Made.write at h
        rw [hcall] at h
        exact ⟨m, List.mem_append_right _ (List.mem_singleton_self m), ⟨i, hcall⟩, Payload.port.inj h⟩

section
variable {cfg : Config} {lib : Libnvme} {errno : Int} {ep : Endpoint} {r : Reply}

theorem exists_portInfo (hr : r ∈ ((Command.portInformation.request cfg).executed lib errno ep).posted)
    (hec : r.ec.isError = false) : ∃ port, r.payload = .port port := by
  by_cases hrc : (lib 0 .readMiDataSubsys).rc = 0
  · have hposted : ((Command.portInformation.request cfg).executed lib errno ep).posted = [_] :=
      NVMeMi.posted_of_rc hrc errno ep
    rw [hposted] at hr
    obtain rfl := List.mem_singleton.mp hr
    cases hresult : linearSearch (NVMeMi.probePort lib) (NVMeMi.lastPort lib) 0 with
    | failed k =>
        rw [hresult] at hec
        cases hec
    | found k => exact ⟨_, rfl⟩
    | exhausted => exact ⟨_, rfl⟩
  · obtain ⟨r', hposted, herr⟩ := NVMeMi.posted_of_rc_ne hrc errno ep
    rw [show ((Command.portInformation.request cfg).executed lib errno ep).posted = [r'] from hposted] at hr
    obtain rfl := List.mem_singleton.mp hr
    rw [hec] at herr
    cases herr

theorem told_of_faithful {task : Closure Unit} {m : Made} (hmade : (task.exec lib (.start errno ep)).2.made = [m])
    (hfaithful : FaithfulOn (task.exec lib (.start errno ep)).2) (hr : r ∈ (task.exec lib (.start errno ep)).2.posted)
    (hec : r.ec.isError = false) : m.ans.rc = 0 ∧ r.payload = m.write .null := by
  obtain ⟨hrc, hpayload⟩ := (hfaithful r hr).success hec
  rw [hmade] at hrc hpayload
  exact ⟨hrc m (List.mem_singleton_self m), hpayload⟩

theorem tells_of_posted {c : Command} (hr : r ∈ ((c.request cfg).executed lib errno ep).posted)
    (hec : r.ec.isError = false) : Tells ((c.request cfg).executed lib errno ep).made c r := by
  cases c with
  | scan =>
      rw [show ((Command.scan.request cfg).executed lib errno ep).posted = [_] from
        NVMeMi.posted_miScanCtrl lib errno ep] at hr
      obtain rfl := List.mem_singleton.mp hr
      intro h hh
      rw [show ((Command.scan.request cfg).executed lib errno ep).made = [_] from
        NVMeMi.made_miScanCtrl lib errno ep]
      refine ⟨_, List.mem_singleton_self _, rfl, ?_⟩
      -- a scan that fails lists no controller
      change h ∈ (if (lib 0 (.scanEp true)).rc = 0 then _ else _) at hh
      split at hh
      · next hrc => exact ⟨hrc, hh⟩
      · cases hh
  | identify ctrl =>
      have hmade : ∃ m, ((Command.identify ctrl).request cfg |>.executed lib errno ep).made = [m] ∧
          m.call.isIdentify = true ∧ ∃ bytes, m.write .null = .span bytes := by
        change ∃ m, ((NVMeMi.adminIdentify ctrl .ctrl Command.NVME_NSID_NONE 0 _).exec lib (.start errno ep)).2.made =
          [m] ∧ _
        unfold NVMeMi.adminIdentify
        split
        · exact ⟨_, NVMeMi.made_reportResult lib (fun _ t => ⟨_, rfl⟩) errno ep, rfl, _, rfl⟩
        · exact ⟨_, NVMeMi.made_reportResult lib (fun _ t => ⟨_, rfl⟩) errno ep, rfl, _, rfl⟩
      obtain ⟨m, hmade, hcall, bytes, hbytes⟩ := hmade
      obtain ⟨hrc, hpayload⟩ :=
        told_of_faithful hmade (NVMeMi.faithful_adminIdentify lib errno ep ctrl .ctrl _ 0 _) hr hec
      refine ⟨m, ?_, hcall, hrc, ?_⟩
      · rw [hmade]
        exact List.mem_singleton_self m
      · rw [hpayload, hbytes]
        rfl
  | portInformation =>
      obtain ⟨port, hport⟩ := exists_portInfo hr hec
      obtain ⟨hrc, hpayload⟩ := (NVMeMi.faithful_miPCIePortInformation lib errno ep r hr).success hec
      have hcalls : ∀ m ∈ ((Command.portInformation.request cfg).executed lib errno ep).made,
          m.call = .readMiDataSubsys ∨ ∃ i, m.call = .readMiDataPort i := by
        intro m hm
        have hmakes : Command.portInformation.Makes m.call := made_request hm
        cases hcall : m.call with
        | readMiDataSubsys => exact .inl rfl
        | readMiDataPort i => exact .inr ⟨i, rfl⟩
        | _ =>
            rw [hcall] at hmakes
            exact hmakes.elim
      obtain ⟨m, hm, hcall, hread⟩ := exists_port hcalls (hpayload.symm.trans hport)
      exact ⟨m, hm, hcall, hrc m hm, hread.trans (congrArg Payload.portInfo hport).symm⟩
  | health =>
      have hmade : (NVMeMi.miSubsystemHealthStatusPoll.exec lib (.start errno ep)).2.made = [_] :=
        NVMeMi.made_reportResult lib (fun _ t => ⟨_, rfl⟩) errno ep
      obtain ⟨hrc, hpayload⟩ := told_of_faithful hmade (NVMeMi.faithful_miSubsystemHealthStatusPoll lib errno ep) hr hec
      refine ⟨_, ?_, rfl, hrc, (congrArg Payload.healthStatus hpayload).symm⟩
      rw [show ((Command.health.request cfg).executed lib errno ep).made = [_] from hmade]
      exact List.mem_singleton_self _
  | smart | sanitizeLog | sanitize => trivial

end
end NvmeManager
