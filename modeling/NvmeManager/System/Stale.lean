import NvmeManager.Mi.Reporting
import NvmeManager.System.Handles

/-!
# Stale handles are used

* `NVMeDevice.Known` : the handles that a drive has are of scans that its endpoint has seen;
* `exists_executed` : the worker can execute the requests up to any that waits, and each scan among them counts;
* `unfresh_of_usesStale` : an event that makes a request with a stale handle, in any reachable state, leads to a command
  that is not fresh as soon as the worker has executed the request.
-/

namespace NvmeManager

/-- The handle of the drive, and those that the callbacks of its scans bring, are of scans that the endpoint has seen. -/
structure NVMeDevice.Known (d : NVMeDevice) : Prop where
  ctrl : ∀ ep ∈ d.intf.nvmeEP, d.ctrl.scan ≤ ep.scans
  scanned : ∀ ep ∈ d.intf.nvmeEP, ∀ q ∈ d.intf.io, q.command = .scan → ∀ h ∈ q.reply.payload.ctrlList, h.scan ≤ ep.scans

/-! ## Requests -/

section
variable {cfg : Config} {lib : Libnvme} {errno : Int} {ep : Endpoint} {mi : NVMeMi} {c : Command} {h : Ctrl}

/-- The controllers of a scan have handles of that scan. -/
theorem ctrlList_scan {r : Reply} (hr : r ∈ ((Command.scan.request cfg).executed lib errno ep).posted) :
    ∀ h ∈ r.payload.ctrlList, h.scan = ep.scans + 1 := by
  rw [show ((Command.scan.request cfg).executed lib errno ep).posted = [_] from
    NVMeMi.posted_miScanCtrl lib errno ep] at hr
  obtain rfl := List.mem_singleton.mp hr
  intro h hh
  change h ∈ (if (lib 0 (.scanEp true)).rc = 0 then (lib 0 (.scanEp true)).out.handles.map (⟨ep.scans + 1, ·⟩)
    else []) at hh
  split at hh
  · obtain ⟨p, _, rfl⟩ := List.mem_map.mp hh
    rfl
  · cases hh

theorem scans_executed :
    ((c.request cfg).executed lib errno ep).ep.scans = ep.scans + if c = .scan then 1 else 0 := by
  split
  · next hscan =>
      subst hscan
      exact NVMeMi.scans_miScanCtrl lib errno ep
  · next hscan => exact (scans_request hscan).ep

def failing : Libnvme := .failed 0

theorem exists_made (hh : h ∈ c.ctrl?) :
    ∃ m ∈ ((c.request cfg).executed failing errno ep).made, h ∈ m.call.ctrl? ∧ m.scans = ep.scans := by
  cases c with
  | scan | portInformation | health => cases hh
  | identify ctrl =>
      change ∃ m ∈ ((NVMeMi.adminIdentify ctrl .ctrl _ 0 _).exec failing (.start errno ep)).2.made, _
      unfold NVMeMi.adminIdentify
      split
      · exact ⟨_, List.mem_singleton_self _, hh, rfl⟩
      · exact ⟨_, List.mem_singleton_self _, hh, rfl⟩
  | smart ctrl => exact ⟨_, List.mem_singleton_self _, hh, rfl⟩
  | sanitizeLog ctrl => exact ⟨_, List.mem_singleton_self _, hh, rfl⟩
  | sanitize ctrl type passes =>
      obtain ⟨r, hmade, _⟩ : ∃ r,
          (((Command.sanitize ctrl type passes).request cfg).executed failing errno ep).made =
            [⟨sanitizeCall ctrl type passes, ep.scans, failing 0 (sanitizeCall ctrl type passes)⟩] ∧ _ :=
        executed_sanitize ctrl type passes
      rw [hmade]
      refine ⟨_, List.mem_singleton_self _, ?_, rfl⟩
      cases type with
      | overwrite | blockErase | cryptoErase => exact hh

end

/-! ## The worker goes on -/

namespace Process
variable {cfg : Config} {p p' : Process} {e : Event} {ep : Endpoint} {h : Ctrl}

theorem exists_execute {c : Command} {rest : List Command} (habort : p.aborted = false)
    (hep : p.drive.intf.nvmeEP = some ep) (hworker : p.drive.intf.worker = c :: rest) :
    ∃ p', p.Step cfg (.execute failing 0) p' ∧ p'.aborted = false ∧
      p'.drive.intf.nvmeEP = some ((c.request cfg).executed failing 0 ep).ep ∧ p'.drive.intf.worker = rest ∧
      p'.drive.intf.made = p.drive.intf.made ++ ((c.request cfg).executed failing 0 ep).made := by
  have hmi : ∃ mi, p.drive.intf.execute cfg failing 0 = some mi ∧
      mi.nvmeEP = some ((c.request cfg).executed failing 0 ep).ep ∧ mi.worker = rest ∧
      mi.made = p.drive.intf.made ++ ((c.request cfg).executed failing 0 ep).made := by
    unfold NVMeMi.execute
    rw [hep, hworker]
    exact ⟨_, rfl, rfl, rfl, rfl⟩
  obtain ⟨mi, hmi, hafter⟩ := hmi
  refine ⟨⟨{ p.drive with intf := mi }, false⟩, ?_, rfl, hafter⟩
  unfold Step next
  rw [habort]
  simp [hmi]

theorem exists_executed {before behind : List Command} {c : Command} (habort : p.aborted = false)
    (hep : p.drive.intf.nvmeEP = some ep) (hworker : p.drive.intf.worker = before ++ c :: behind) (hh : h ∈ c.ctrl?) :
    ∃ p', Run (Step cfg) p (List.replicate (before.length + 1) (.execute failing 0)) p' ∧
      ∃ m ∈ p'.drive.intf.made, h ∈ m.call.ctrl? ∧ m.scans = ep.scans + before.count .scan := by
  induction before generalizing p ep with
  | nil =>
      obtain ⟨p', hstep, _, _, _, hmade⟩ : ∃ p', p.Step cfg (.execute failing 0) p' ∧ _ :=
        exists_execute habort hep hworker
      obtain ⟨m, hm, hctrl, hscans⟩ : ∃ m ∈ ((c.request cfg).executed failing 0 ep).made, _ := exists_made hh
      refine ⟨p', Run.nil.snoc hstep, m, ?_, hctrl, hscans⟩
      rw [hmade]
      exact List.mem_append_right _ hm
  | cons c₀ before ih =>
      obtain ⟨p₁, hstep, habort₁, hep₁, hworker₁, _⟩ : ∃ p', p.Step cfg (.execute failing 0) p' ∧ _ :=
        exists_execute habort hep hworker
      obtain ⟨p', hrun, m, hm, hctrl, hscans⟩ := ih habort₁ hep₁ hworker₁
      refine ⟨p', (Run.nil.snoc hstep).append hrun, m, hm, hctrl, ?_⟩
      rw [hscans, scans_executed, List.count_cons, Nat.add_assoc, Nat.add_comm (if c₀ = .scan then 1 else 0)]
      simp only [beq_iff_eq]

end Process

/-! ## Known handles -/

namespace NVMeDevice
variable {cfg : Config} {d d' : NVMeDevice} {c : Command} {r : Reply}

theorem known_follow {f : Follow} (hknown : d.Known) (hctrl : ∀ ep ∈ d.intf.nvmeEP, d'.ctrl.scan ≤ ep.scans)
    (hintf : d'.intf = f.intf cfg d.intf) : d'.Known := by
  have hep : d'.intf.nvmeEP = d.intf.nvmeEP := by
    rw [hintf]
    cases f with
    | request c => exact NVMeMi.nvmeEP_submit c
    | wait | nothing => rfl
  refine ⟨?_, ?_⟩
  · rw [hep]
    exact hctrl
  · intro ep hep' q hq
    rw [hep] at hep'
    refine hknown.scanned ep hep' q ?_
    rw [hintf] at hq
    cases f with
    | request c =>
        rw [Follow.intf, NVMeMi.submit, show d.intf.nvmeEP = some ep from hep'] at hq
        exact hq
    | wait | nothing => exact hq

theorem known_call (hknown : d.Known) : (d.call cfg c).Known := by
  have hintf : (d.call cfg c).intf = (Follow.request c).intf cfg d.intf := rfl
  exact known_follow hknown hknown.ctrl hintf

/-- Only a scan changes the handle of the drive, to one that it brings. -/
theorem ctrl_handle (h : d.handle cfg c r = some d') :
    d'.ctrl = d.ctrl ∨ c = .scan ∧ d'.ctrl ∈ r.payload.ctrlList := by
  cases c with
  | scan =>
      obtain rfl := Option.some.inj h
      unfold scanned
      split
      · next hlast => exact .inr ⟨rfl, List.mem_of_getLast? hlast⟩
      · exact .inl rfl
  | identify ctrl =>
      obtain rfl := Option.some.inj h
      unfold identified
      split
      · split
        · exact .inl rfl
        · exact .inl rfl
      · exact .inl rfl
  | portInformation | health | smart | sanitizeLog | sanitize =>
      exact .inl (handle_frame h nofun nofun).1

theorem known_tick (hknown : d.Known) : (d.tick cfg).Known := by
  unfold tick
  split
  · exact known_call ⟨hknown.ctrl, hknown.scanned⟩
  · split
    · obtain ⟨hctrl, hscanned⟩ : (d.call cfg (.sanitizeLog d.ctrl)).Known := known_call hknown
      exact ⟨hctrl, hscanned⟩
    · exact known_call (known_call hknown)

/-- The worker executes the oldest request: only a scan brings handles, and they are of that scan. -/
theorem known_execute {lib : Libnvme} {errno : Int} {mi : NVMeMi} (hknown : d.Known)
    (h : d.intf.execute cfg lib errno = some mi) : ({ d with intf := mi } : NVMeDevice).Known := by
  obtain ⟨ep, c, rest, hep, hworker, rfl⟩ := NVMeMi.execute_eq_some h
  have hscans : ((c.request cfg).executed lib errno ep).ep.scans = ep.scans + if c = .scan then 1 else 0 :=
    scans_executed
  have hle : ep.scans ≤ ((c.request cfg).executed lib errno ep).ep.scans := by omega
  refine ⟨?_, ?_⟩
  · rintro _ ⟨⟩
    exact Nat.le_trans (hknown.ctrl ep hep) hle
  · rintro _ ⟨⟩ q hq hscan ctrl hctrl
    rcases List.mem_append.mp hq with hq | hq
    · exact Nat.le_trans (hknown.scanned ep hep q hq hscan ctrl hctrl) hle
    · obtain ⟨r, hr, rfl⟩ := List.mem_map.mp hq
      obtain rfl : c = .scan := hscan
      rw [hscans, if_pos rfl]
      exact Nat.le_of_eq (ctrlList_scan hr ctrl hctrl)

end NVMeDevice

namespace Process
variable {cfg : Config} {p p' : Process} {e : Event} {h : Ctrl}

theorem known_of_turn (hknown : p.drive.Known) (hturn : Turn cfg p e p') : p'.drive.Known := by
  cases hturn with
  | initializeDrive => exact NVMeDevice.known_call ⟨hknown.ctrl, hknown.scanned⟩
  | inventory =>
      refine ⟨?_, ?_⟩
      · rw [NVMeDevice.intf_inventory, NVMeDevice.ctrl_inventory]
        exact hknown.ctrl
      · rw [NVMeDevice.intf_inventory]
        exact hknown.scanned
  | writeFault | expire => exact ⟨hknown.ctrl, hknown.scanned⟩
  | refused => exact hknown
  | erased herase =>
      obtain ⟨_, ⟨_, rfl⟩ | ⟨_, rfl⟩⟩ := NVMeDevice.erase_eq_ok herase
      · exact hknown
      · exact NVMeDevice.known_call hknown
  | tick => exact NVMeDevice.known_tick ⟨hknown.ctrl, hknown.scanned⟩
  | execute hmi => exact NVMeDevice.known_execute hknown hmi
  | @deliver q rest d hio hhandle =>
      have hscanned : ∀ ep ∈ p.drive.intf.nvmeEP, ∀ q' ∈ q :: rest, q'.command = .scan →
          ∀ h ∈ q'.reply.payload.ctrlList, h.scan ≤ ep.scans := hio ▸ hknown.scanned
      have hpopped : (p.popped rest).Known :=
        ⟨hknown.ctrl, fun ep hep q' hq' => hscanned ep hep q' (List.mem_cons_of_mem _ hq')⟩
      refine NVMeDevice.known_follow hpopped (fun ep hep => ?_) (NVMeDevice.handle_follow hhandle).2
      rcases NVMeDevice.ctrl_handle hhandle with hctrl | ⟨hscan, hctrl⟩
      · rw [hctrl]
        exact hknown.ctrl ep hep
      · exact hscanned ep hep q List.mem_cons_self hscan _ hctrl
  | @abort q rest hio =>
      refine ⟨hknown.ctrl, fun ep hep q' hq' => hknown.scanned ep hep q' ?_⟩
      rw [hio]
      exact List.mem_cons_of_mem _ hq'

theorem known_uses {ep : Endpoint} (hknown : p.drive.Known) (hep : ep ∈ p.drive.intf.nvmeEP) (hh : h ∈ p.uses e) :
    h.scan ≤ ep.scans := by
  unfold uses at hh
  split at hh
  · split at hh
    · obtain rfl := Option.some.inj hh
      exact hknown.ctrl ep hep
    · cases hh
  · split at hh
    · obtain rfl := Option.some.inj hh
      exact hknown.ctrl ep hep
    · cases hh
  · obtain ⟨q, hq, hh⟩ := Option.bind_eq_some_iff.mp hh
    have hmem : q ∈ p.drive.intf.io := List.mem_of_mem_head? hq
    unfold usesCallback at hh
    split at hh
    · next hscan =>
        split at hh
        · cases hh
        · exact hknown.scanned ep hep q hmem hscan h (List.mem_of_getLast? hh)
    · split at hh
      · obtain rfl := Option.some.inj hh
        exact hknown.ctrl ep hep
      · cases hh
    · cases hh
  · cases hh

theorem follow_uses {d : NVMeDevice} {c : Command} {r : Reply} (hh : h ∈ usesCallback d c r) :
    ∃ c', d.follow c r = .request c' ∧ h ∈ c'.ctrl? := by
  unfold usesCallback at hh
  unfold NVMeDevice.follow
  cases c with
  | scan =>
      dsimp only at hh
      split at hh
      · cases hh
      · next hec =>
          rw [Bool.not_eq_true] at hec
          refine ⟨.identify h, ?_, rfl⟩
          rw [hec, show r.payload.ctrlList.getLast? = some h from hh]
  | identify ctrl =>
      dsimp only at hh
      split at hh
      · next hretry =>
          refine ⟨.identify d.ctrl, ?_, hh⟩
          dsimp only
          rw [if_pos hretry]
      · cases hh
  | portInformation | health | smart | sanitizeLog | sanitize => cases hh

theorem request_of_uses {ep : Endpoint} (hep : p.drive.intf.nvmeEP = some ep) (hh : h ∈ p.uses e)
    (hturn : Turn cfg p e p') : p'.aborted = false ∧ p'.drive.intf.nvmeEP = some ep ∧
      ∃ before c, h ∈ c.ctrl? ∧ p'.drive.intf.worker = p.drive.intf.worker ++ before ++ [c] := by
  cases hturn with
  | initializeDrive | inventory | writeFault | expire | execute => cases hh
  | refused hrefused =>
      rw [uses] at hh
      rw [NVMeDevice.erase_eq_error_iff.mp hrefused] at hh
      simp at hh
  | @erased passes type d herase =>
      rw [uses] at hh
      obtain ⟨hprogress, ⟨hcap, rfl⟩ | ⟨hcap, rfl⟩⟩ := NVMeDevice.erase_eq_ok herase
      · rw [if_neg fun hboth => hcap hboth.2] at hh
        cases hh
      · rw [if_pos ⟨hprogress, hcap⟩] at hh
        refine ⟨rfl, (NVMeMi.nvmeEP_submit _).trans hep, [], .sanitize p.drive.ctrl type passes, hh, ?_⟩
        rw [List.append_nil]
        exact NVMeMi.worker_submit hep _
  | @tick t ht =>
      rw [uses] at hh
      split at hh
      · next hpresence =>
          have hpresent : ({ p.drive with scanTimer := t } : NVMeDevice).presence ≠ false := by
            change p.drive.presence ≠ false
            simp [hpresence]
          dsimp only
          unfold NVMeDevice.tick
          rw [if_neg hpresent]
          split
          · refine ⟨rfl, (NVMeMi.nvmeEP_submit _).trans hep, [], .sanitizeLog p.drive.ctrl, hh, ?_⟩
            rw [List.append_nil]
            exact NVMeMi.worker_submit hep _
          · have hep' : (p.drive.intf.submit cfg .health).nvmeEP = some ep := (NVMeMi.nvmeEP_submit _).trans hep
            refine ⟨rfl, (NVMeMi.nvmeEP_submit _).trans hep', [.health], .smart p.drive.ctrl, hh, ?_⟩
            rw [← NVMeMi.worker_submit hep]
            exact NVMeMi.worker_submit hep' _
      · cases hh
  | @deliver q rest d hio hhandle =>
      rw [uses, hio] at hh
      obtain ⟨c', hfollow, hctrl⟩ : ∃ c', (p.popped rest).follow q.command q.reply = .request c' ∧ h ∈ c'.ctrl? :=
        follow_uses hh
      have hintf := (NVMeDevice.handle_follow hhandle).2
      rw [hfollow] at hintf
      have hep' : (p.popped rest).intf.nvmeEP = some ep := hep
      dsimp only
      rw [hintf]
      refine ⟨rfl, (NVMeMi.nvmeEP_submit _).trans hep', [], c', hctrl, ?_⟩
      rw [List.append_nil]
      exact NVMeMi.worker_submit hep' c'
  | @abort q rest hio hhandle =>
      rw [uses, hio] at hh
      cases hc : q.command with
      | sanitizeLog ctrl =>
          dsimp only [List.head?_cons, Option.bind_some] at hh
          rw [hc] at hh
          cases hh
      | scan | identify | portInformation | health | smart | sanitize =>
          rw [hc] at hhandle
          cases hhandle

/-! ## Runs -/

section
variable {props : NvmeInterfaces} {u : Uninitialised} {eid : UInt8} {bus : UInt32} {path : String}
  {timeout : Option Nat} {es : List Event}

theorem known_of_run (hrun : Run (Step cfg) (start cfg props u eid bus path timeout) es p) : p.drive.Known := by
  refine hrun.invariant (fun p => p.drive.Known) ?_ ?_
  · exact ⟨fun _ _ => Nat.zero_le _, fun _ _ q hq => absurd hq List.not_mem_nil⟩
  · intro s e s' hknown h
    exact known_of_turn hknown (turn_of_step h).2

/-- After a step that uses a stale handle the worker only has to go on, and it makes a command that is not fresh. -/
theorem unfresh_of_usesStale (hrun : Run (Step cfg) (start cfg props u eid bus path timeout) es p)
    (hstale : p.UsesStale e) (hstep : p.Step cfg e p') :
    ∃ n p'', Run (Step cfg) p' (List.replicate n (.execute failing 0)) p'' ∧
      ∃ m ∈ p''.drive.intf.made, ¬ m.Fresh := by
  obtain ⟨h, hh, ep, hep, hstale⟩ := hstale
  have hturn := (turn_of_step hstep).2
  have hknown : h.scan ≤ ep.scans := known_uses (known_of_run hrun) hep hh
  obtain ⟨habort, hep', before, c, hctrl, hworker⟩ := request_of_uses hep hh hturn
  obtain ⟨p'', hrun', m, hm, hcall, hscans⟩ := exists_executed habort hep' hworker hctrl
  refine ⟨_, p'', hrun', m, hm, fun hfresh => ?_⟩
  obtain ⟨heq, hne⟩ := hfresh h hcall
  rw [hscans, List.count_append] at heq
  rcases hstale with hscan | hother | hzero
  · have hcount : 0 < p.drive.intf.worker.count .scan := List.count_pos_iff.mpr hscan
    omega
  · omega
  · exact hne hzero

end

end Process
end NvmeManager
