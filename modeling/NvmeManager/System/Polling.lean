import NvmeManager.Device.Requests
import NvmeManager.System.Process

/-!
# The poll loop of a drive

The loop runs through five callbacks: scan, identify, port information, the timer, SMART.

* `Command.Chain` : the requests whose callback carries the loop on; `NVMeDevice.Polling` : the timer has a handler that
  will run, or such a request is outstanding;
* `NVMeDevice.Keeps` : nothing that keeps a drive polled is taken away; every callback keeps (`keeps_handle`), and that
  of a chain request carries on (`polling_handle`), but for a scan that fails;
* `Process.Kills` : the callbacks at which the loop ends: the last hope of a drive is a scan that fails, or the estimate
  of a sanitize log is zero;
* `polling_of_run` : without them a drive that has been initialized is polled for ever; `dead_of_kills` : with one it is
  not.
-/

namespace NvmeManager

/-- A request whose callback makes the next one, or arms the timer. -/
def Command.Chain : Command → Prop
  | .scan | .identify _ | .portInformation | .smart _ => True
  | .health | .sanitizeLog _ | .sanitize .. => False

instance (c : Command) : Decidable c.Chain :=
  match c with
  | .scan | .identify _ | .portInformation | .smart _ => inferInstanceAs (Decidable True)
  | .health | .sanitizeLog _ | .sanitize .. => inferInstanceAs (Decidable False)

/-- The requests that come before the first poll. -/
def Command.Opening : Command → Prop
  | .scan | .identify _ | .portInformation => True
  | .health | .smart _ | .sanitizeLog _ | .sanitize .. => False

/-! ## What keeps a drive polled -/

namespace NVMeDevice
variable {cfg : Config} {d d' d'' : NVMeDevice} {c : Command} {r : Reply}

/-- A handler of the timer will run, or a request of the loop is outstanding. -/
def Polling (d : NVMeDevice) : Prop := d.scanTimer.Live ∨ ∃ c ∈ d.intf.outstanding, c.Chain

instance : Decidable d.Polling := inferInstanceAs (Decidable (_ ∨ _))

/-- Every handler that will run and every outstanding request is still there. -/
structure Keeps (d d' : NVMeDevice) : Prop where
  timer : d.scanTimer.Live → d'.scanTimer.Live
  requests : ∀ c ∈ d.intf.outstanding, c ∈ d'.intf.outstanding

theorem Keeps.trans (h : Keeps d d') (h' : Keeps d' d'') : Keeps d d'' :=
  ⟨fun hl => h'.timer (h.timer hl), fun c hc => h'.requests c (h.requests c hc)⟩

theorem keeps_of_eq (htimer : d'.scanTimer = d.scanTimer) (hintf : d'.intf = d.intf) : Keeps d d' := by
  refine ⟨?_, ?_⟩
  · rw [htimer]
    exact id
  · rw [hintf]
    exact fun _ hc => hc

theorem keeps_call (htimer : d'.scanTimer = d.scanTimer) (hintf : d'.intf = d.intf) : Keeps d (d'.call cfg c) := by
  refine (keeps_of_eq htimer hintf).trans ⟨id, fun _ hc => ?_⟩
  exact NVMeMi.mem_outstanding_of_mem hc

theorem keeps_follow {f : Follow} (htimer : d'.scanTimer = f.timer d.scanTimer) (hintf : d'.intf = f.intf cfg d.intf) :
    Keeps d d' := by
  refine ⟨fun hlive => ?_, fun c hc => ?_⟩
  · rw [htimer]
    cases f with
    | wait => exact SteadyTimer.live_arm _ _
    | request | nothing => exact hlive
  · rw [hintf]
    cases f with
    | request c' => exact NVMeMi.mem_outstanding_of_mem hc
    | wait | nothing => exact hc

theorem Polling.keeps (hp : d.Polling) (h : Keeps d d') : d'.Polling := by
  rcases hp with hlive | ⟨c, hc, hchain⟩
  · exact .inl (h.timer hlive)
  · exact .inr ⟨c, h.requests c hc, hchain⟩

theorem polling_call (hc : c.Chain) : (d.call cfg c).Polling := .inr ⟨c, NVMeMi.mem_outstanding_self, hc⟩

theorem polling_pollDrive : d.pollDrive.Polling := .inl (SteadyTimer.live_arm _ _)

theorem polling_initializeDrive : (d.initializeDrive cfg).Polling := polling_call trivial

/-! ## Callbacks -/

/-- The scan of a drive has failed, or found no controller. -/
def scanFails (r : Reply) : Prop := r.ec.isError = true ∨ r.payload.ctrlList = []

instance : Decidable (scanFails r) := inferInstanceAs (Decidable (_ ∨ _))

theorem follow_scan_fails (h : scanFails r) : d.follow .scan r = .nothing := by
  unfold follow
  rcases h with h | h
  · rw [h]
  · rw [h]
    cases r.ec.isError <;> rfl

/-- The callback of a chain request makes one, or arms the timer, but for a scan that fails. -/
theorem follow_chain (hc : c.Chain) (hscan : c = .scan → ¬ scanFails r) :
    d.follow c r = .wait ∨ ∃ c', c'.Chain ∧ d.follow c r = .request c' := by
  cases c with
  | health | sanitizeLog | sanitize => exact hc.elim
  | scan =>
      have hnot := hscan rfl
      have hec : r.ec.isError = false := by
        rw [← Bool.not_eq_true]
        exact fun he => hnot (.inl he)
      have hne : r.payload.ctrlList ≠ [] := fun hnil => hnot (.inr hnil)
      refine .inr ⟨.identify (r.payload.ctrlList.getLast hne), trivial, ?_⟩
      unfold follow
      rw [hec, List.getLast?_eq_getLast_of_ne_nil hne]
  | identify ctrl =>
      refine .inr ⟨_, ?_, rfl⟩
      split
      · trivial
      · trivial
  | portInformation | smart => exact .inl rfl

theorem opening_follow {c' : Command} (h : d.follow c r = .request c') : c'.Opening := by
  unfold follow at h
  cases c with
  | scan =>
      dsimp only at h
      split at h
      · cases h
        trivial
      · cases h
  | identify ctrl =>
      obtain rfl := Follow.request.inj h
      split
      · trivial
      · trivial
  | sanitizeLog ctrl =>
      dsimp only at h
      split at h
      · cases h
      · cases h
  | portInformation | health | smart | sanitize => cases h

theorem keeps_handle (h : d.handle cfg c r = some d') : Keeps d d' :=
  keeps_follow (handle_follow h).1 (handle_follow h).2

/-- The callback of a chain request carries the loop on, but for a scan that fails. -/
theorem polling_handle (hc : c.Chain) (hscan : c = .scan → ¬ scanFails r) (h : d.handle cfg c r = some d') :
    d'.Polling := by
  obtain ⟨htimer, hintf⟩ := handle_follow h
  unfold Polling
  rw [htimer, hintf]
  rcases follow_chain hc hscan with hwait | ⟨c', hchain, hrequest⟩
  · rw [hwait]
    exact .inl (SteadyTimer.live_arm _ _)
  · rw [hrequest]
    exact .inr ⟨c', NVMeMi.mem_outstanding_self, hchain⟩

theorem polling_tick : (d.tick cfg).Polling := by
  unfold tick
  split
  · exact polling_initializeDrive
  · split
    · exact polling_pollDrive
    · exact polling_call trivial

/-! ## Division by zero -/

/-- A sanitize log says that the sanitize is in progress, and gives an estimate that is used as zero. -/
def ZeroEstimate (cfg : Config) (v : DriveView) (data : List UInt8) : Prop :=
  (SanitizeLogPage.parse data).res = NVME_SANITIZE_SSTAT_STATUS_IN_PROGESS ∧
    (if v.estimate (SanitizeLogPage.parse data) = 0xFFFFFFFF then cfg.driveSanitizeTime
      else v.estimate (SanitizeLogPage.parse data)) = 0

instance (v : DriveView) (data : List UInt8) : Decidable (ZeroEstimate cfg v data) :=
  inferInstanceAs (Decidable (_ ∧ _))

theorem updatePercent_eq_none_iff {v : DriveView} {endTime : UInt32} :
    v.updatePercent cfg endTime = none ↔ (if endTime = 0xFFFFFFFF then cfg.driveSanitizeTime else endTime) = 0 := by
  unfold DriveView.updatePercent
  dsimp only
  generalize (if endTime = 0xFFFFFFFF then cfg.driveSanitizeTime else endTime) = time
  by_cases h : time = 0
  · simp [h]
  · simp [h]

theorem sanitizeEnded_inProgress {v : DriveView} :
    v.sanitizeEnded NVME_SANITIZE_SSTAT_STATUS_IN_PROGESS = v := rfl

theorem sanitizeLogRead_eq_none_iff :
    d.sanitizeLogRead cfg r = none ↔ r.ec.isError = false ∧ ZeroEstimate cfg d.toDriveView r.payload.bytes := by
  unfold sanitizeLogRead ZeroEstimate
  by_cases herr : r.ec.isError = true
  · simp [herr]
  · rw [if_neg herr]
    dsimp only
    rw [Bool.not_eq_true] at herr
    by_cases hres : (SanitizeLogPage.parse r.payload.bytes).res = NVME_SANITIZE_SSTAT_STATUS_IN_PROGESS
    · rw [if_neg (not_not_intro hres), hres, sanitizeEnded_inProgress, Option.map_eq_none_iff,
        updatePercent_eq_none_iff]
      simp [herr]
    · simp [hres]

/-- Only a sanitize log can abort the process. -/
theorem handle_eq_none (h : d.handle cfg c r = none) : ∃ ctrl, c = .sanitizeLog ctrl ∧
    r.ec.isError = false ∧ ZeroEstimate cfg d.toDriveView r.payload.bytes := by
  cases c with
  | sanitizeLog ctrl => exact ⟨ctrl, rfl, sanitizeLogRead_eq_none_iff.mp h⟩
  | scan | identify | portInformation | health | smart | sanitize => cases h

end NVMeDevice

/-! ## Runs -/

namespace Process
variable {cfg : Config} {p p' : Process} {e : Event}

/-- The callback ends the loop: a scan has failed and nothing else keeps the drive polled, or the percentage of a
sanitize is a division by zero. -/
def Kills (cfg : Config) (p : Process) : Event → Prop
  | .deliver =>
    match p.drive.intf.io with
    | [] => False
    | q :: rest =>
      match q.command with
      | .scan => NVMeDevice.scanFails q.reply ∧ ¬ (p.popped rest).Polling
      | .sanitizeLog _ =>
        q.reply.ec.isError = false ∧ NVMeDevice.ZeroEstimate cfg p.drive.toDriveView q.reply.payload.bytes
      | _ => False
  | _ => False

theorem kills_deliver {q : Pending} {rest : List Pending} (hio : p.drive.intf.io = q :: rest) :
    p.Kills cfg .deliver =
      match q.command with
      | .scan => NVMeDevice.scanFails q.reply ∧ ¬ (p.popped rest).Polling
      | .sanitizeLog _ =>
        q.reply.ec.isError = false ∧ NVMeDevice.ZeroEstimate cfg p.drive.toDriveView q.reply.payload.bytes
      | _ => False := by
  simp only [Kills, hio]

/-- What kept a drive polled was the oldest callback, or is still there without it. -/
theorem polling_popped {q : Pending} {rest : List Pending} (hp : p.drive.Polling)
    (hio : p.drive.intf.io = q :: rest) : q.command.Chain ∨ (p.popped rest).Polling := by
  rcases hp with hlive | ⟨c, hc, hchain⟩
  · exact .inr (.inl hlive)
  · rw [NVMeMi.outstanding, hio, List.map_cons, List.cons_append, List.mem_cons] at hc
    rcases hc with rfl | hc
    · exact .inl hchain
    · exact .inr (.inr ⟨c, hc, hchain⟩)

theorem polling_execute {lib : Libnvme} {errno : Int} {mi : NVMeMi} (hp : p.drive.Polling)
    (h : p.drive.intf.execute cfg lib errno = some mi) : ({ p.drive with intf := mi } : NVMeDevice).Polling := by
  obtain ⟨ep, c, rest, _, hworker, rfl⟩ := NVMeMi.execute_eq_some h
  rcases hp with hlive | ⟨c', hc', hchain⟩
  · exact .inl hlive
  · refine .inr ⟨c', ?_, hchain⟩
    rw [NVMeMi.outstanding, hworker] at hc'
    unfold NVMeMi.outstanding
    dsimp only
    rw [List.map_append, List.append_assoc]
    rcases List.mem_append.mp hc' with hio | hqueue
    · exact List.mem_append_left _ hio
    · refine List.mem_append_right _ ?_
      rcases List.mem_cons.mp hqueue with rfl | hrest
      · obtain ⟨reply, hreply⟩ := List.exists_mem_of_ne_nil _ (posted_ne_nil cfg c' lib errno ep)
        refine List.mem_append_left _ (List.mem_map.mpr ⟨_, List.mem_map.mpr ⟨reply, hreply, rfl⟩, rfl⟩)
      · exact List.mem_append_right _ hrest

theorem not_aborted_of_turn (hok : ¬ p.Kills cfg e) (hrunning : p.aborted = false) (h : Turn cfg p e p') :
    p'.aborted = false := by
  cases h with
  | refused => exact hrunning
  | abort hio hnone =>
      obtain ⟨ctrl, hc, hzero⟩ := NVMeDevice.handle_eq_none hnone
      rw [kills_deliver hio, hc] at hok
      exact absurd hzero hok
  | initializeDrive | inventory | writeFault | erased | expire | tick | execute | deliver => rfl

theorem polling_of_turn (hok : ¬ p.Kills cfg e) (hp : p.drive.Polling) (h : Turn cfg p e p') : p'.drive.Polling := by
  cases h with
  | initializeDrive => exact NVMeDevice.polling_initializeDrive
  | inventory =>
      exact hp.keeps (NVMeDevice.keeps_of_eq NVMeDevice.scanTimer_inventory NVMeDevice.intf_inventory)
  | writeFault => exact hp.keeps (NVMeDevice.keeps_of_eq rfl rfl)
  | refused => exact hp
  | erased herase =>
      obtain ⟨_, ⟨_, rfl⟩ | ⟨_, rfl⟩⟩ := NVMeDevice.erase_eq_ok herase
      · exact hp
      · exact hp.keeps (NVMeDevice.keeps_call rfl rfl)
  | expire ht => exact .inl (SteadyTimer.live_expire ht)
  | tick ht => exact NVMeDevice.polling_tick
  | execute hmi => exact polling_execute hp hmi
  | deliver hio hhandle =>
      rename_i q rest d
      by_cases hpopped : (p.popped rest).Polling
      · exact hpopped.keeps (NVMeDevice.keeps_handle hhandle)
      · have hchain : q.command.Chain := (polling_popped hp hio).resolve_right hpopped
        refine NVMeDevice.polling_handle hchain (fun hscan hfails => ?_) hhandle
        rw [kills_deliver hio, hscan] at hok
        exact hok ⟨hfails, hpopped⟩
  | abort hio hnone =>
      obtain ⟨ctrl, hc, hzero⟩ := NVMeDevice.handle_eq_none hnone
      rw [kills_deliver hio, hc] at hok
      exact absurd hzero hok

/-- A callback that ends the loop aborts the process, or leaves a drive that nothing keeps polled. -/
theorem dead_of_kills (hkills : p.Kills cfg e) (h : p.Step cfg e p') : p'.aborted = true ∨ ¬ p'.drive.Polling := by
  obtain ⟨_, hturn⟩ := turn_of_step h
  cases hturn with
  | abort => exact .inl rfl
  | deliver hio hhandle =>
      rename_i q rest d
      rw [kills_deliver hio] at hkills
      cases hc : q.command with
      | scan =>
          rw [hc] at hkills hhandle
          obtain ⟨htimer, hintf⟩ := NVMeDevice.handle_follow hhandle
          rw [NVMeDevice.follow_scan_fails hkills.1] at htimer hintf
          exact .inr fun hp => hkills.2 (hp.keeps (NVMeDevice.keeps_of_eq htimer.symm hintf.symm))
      | sanitizeLog ctrl =>
          rw [hc] at hkills hhandle
          rw [show (p.popped rest).handle cfg (.sanitizeLog ctrl) q.reply = none from
            NVMeDevice.sanitizeLogRead_eq_none_iff.mpr hkills] at hhandle
          cases hhandle
      | identify | portInformation | health | smart | sanitize =>
          rw [hc] at hkills
          exact hkills.elim
  | initializeDrive | inventory | writeFault | refused | erased | expire | tick | execute => exact hkills.elim

section
variable {props : NvmeInterfaces} {u : Uninitialised} {eid : UInt8} {bus : UInt32} {path : String}
  {timeout : Option Nat}

/-- **Polling.** In a run without a callback that ends the loop, a drive that has been initialized is kept polled: a
handler of its timer will run, or a request of the loop is outstanding. -/
theorem polling_of_run {es : List Event}
    (hrun : Run (guarded (fun p e => ¬ p.Kills cfg e) (Step cfg)) (start cfg props u eid bus path timeout) es p)
    (hinit : Event.initializeDrive ∈ es) : p.aborted = false ∧ p.drive.Polling := by
  refine ⟨?_, ?_⟩
  · refine hrun.guarded_invariant (fun p => p.aborted = false) rfl ?_
    intro s e s' hs hok h
    exact not_aborted_of_turn hok hs (turn_of_step h).2
  · refine hrun.established (fun p => p.drive.Polling) ?_ ?_ hinit
    · intro s s' h
      cases (turn_of_step h.2).2 with
      | initializeDrive => exact NVMeDevice.polling_initializeDrive
    · intro s e s' hs h
      exact polling_of_turn h.1 hs (turn_of_step h.2).2

end

/-- The theorem at a drive whose scan finds a controller. -/
theorem polling_of_run_scanned : ∃ p,
    Run (guarded (fun p e => ¬ p.Kills .standard e) (Step .standard)) first
      [.initializeDrive, .execute (.ok { handles := [7] }) 0, .deliver] p ∧ p.drive.Polling := by
  let lib : Libnvme := .ok { handles := [7] }
  let p₁ : Process := ⟨first.drive.initializeDrive .standard, false⟩
  let p₂ : Process := (p₁.next .standard (.execute lib 0)).getD p₁
  let p₃ : Process := (p₂.next .standard .deliver).getD p₂
  have hrun₁ : Run (guarded (fun p e => ¬ p.Kills .standard e) (Step .standard)) first [.initializeDrive] p₁ :=
    Run.nil.snoc ⟨id, rfl⟩
  have hrun₂ : Run (guarded (fun p e => ¬ p.Kills .standard e) (Step .standard)) first
      [.initializeDrive, .execute lib 0] p₂ := hrun₁.snoc ⟨id, rfl⟩
  have hrun₃ : Run (guarded (fun p e => ¬ p.Kills .standard e) (Step .standard)) first
      [.initializeDrive, .execute lib 0, .deliver] p₃ :=
    hrun₂.snoc ⟨fun hkills => absurd hkills.1 (by decide), rfl⟩
  exact ⟨p₃, hrun₃, (polling_of_run hrun₃ (by simp)).2⟩

/-- The scan of a new drive fails: nothing will ever poll it. -/
theorem failed_scan_unpolled : ∃ p,
    Run (Step .standard) first [.initializeDrive, .execute (.failed 109) 0, .deliver] p ∧
      p.aborted = false ∧ ¬ p.drive.Polling := by
  refine ⟨_, Run.of_foldlM rfl, rfl, ?_⟩
  decide

end Process
end NvmeManager
