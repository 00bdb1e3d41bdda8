import NvmeManager.Device.Members
import NvmeManager.System.Polling
import NvmeManager.System.Watch

/-!
# The progress of a sanitize

A drive shows a sanitize in two properties, the status and the percentage, and remembers in `inProgress` that it polls
one. Each callback writes some of the three.

* `DriveView.sanitizeState` : the three; `DriveView.Coherent` : they agree;
* `coherent_started` : a sanitize command that has been answered leaves them in agreement, unless the percentage is that
  of a sanitize that is complete; `coherent_replied` : the other callbacks keep them so, unless a log says that a
  complete sanitize is in progress;
* `Pending.Breaks` : those two callbacks; `Process.coherent_of_run` : without them the three agree once a sanitize command
  has been answered; `Process.incoherent_of_breaks` : after one of them they do not.
-/

namespace NvmeManager

namespace DriveView
variable {cfg : Config} {v v' : DriveView}

def sanitizeState (v : DriveView) : Bool × OperationStatus × UInt8 := (v.inProgress, v.props.status, v.props.progress)

/-- The flag and the percentage are those of the status. -/
structure Coherent (v : DriveView) : Prop where
  inProgress : v.inProgress = true ↔ v.props.status = .inProgress
  progress : v.props.progress = 100 ↔ v.props.status = .completed

instance : Decidable v.Coherent :=
  decidable_of_iff ((v.inProgress = true ↔ v.props.status = .inProgress) ∧
    (v.props.progress = 100 ↔ v.props.status = .completed)) ⟨fun h => ⟨h.1, h.2⟩, fun h => ⟨h.1, h.2⟩⟩

theorem Coherent.congr (hv : v.Coherent) (h : v'.sanitizeState = v.sanitizeState) : v'.Coherent := by
  obtain ⟨hflag, hrest⟩ := Prod.mk.inj h
  obtain ⟨hstatus, hprogress⟩ := Prod.mk.inj hrest
  refine ⟨?_, ?_⟩
  · rw [hflag, hstatus]
    exact hv.inProgress
  · rw [hprogress, hstatus]
    exact hv.progress

theorem sanitizeState_congr (h : v'.sanitizeMembers = v.sanitizeMembers) : v'.sanitizeState = v.sanitizeState :=
  congrArg (fun members => (members.inProgress, members.status, members.progress)) h

/-! ## The writers of the sanitize state -/

theorem coherent_sanitizeEnded {res : UInt8} (hv : v.Coherent) : (v.sanitizeEnded res).Coherent := by
  unfold sanitizeEnded
  split
  · exact ⟨by simp, by simp⟩
  · split
    · exact ⟨by simp, by simp⟩
    · exact hv

theorem coherent_updatePercent {endTime : UInt32} (hv : v.Coherent) (hstatus : v.props.status ≠ .completed)
    (h : v.updatePercent cfg endTime = some v') : v'.Coherent := by
  obtain ⟨percent, time, hlt, rfl⟩ := updatePercent_eq_some h
  refine ⟨hv.inProgress, ?_⟩
  have hne : percent ≠ 100 := by
    rintro rfl
    exact absurd hlt (by decide)
  exact ⟨fun hprogress => absurd hprogress hne, fun hcompleted => absurd hcompleted hstatus⟩

theorem not_coherent_updatePercent {endTime : UInt32} (hstatus : v.props.status = .completed)
    (h : v.updatePercent cfg endTime = some v') : ¬ v'.Coherent := by
  obtain ⟨percent, time, hlt, rfl⟩ := updatePercent_eq_some h
  intro hv
  have hprogress : percent = 100 := hv.progress.mpr hstatus
  rw [hprogress] at hlt
  exact absurd hlt (by decide)

end DriveView

/-! ## Callbacks -/

namespace NVMeDevice
variable {cfg : Config} {v v' : DriveView} {c : Command} {r : Reply}

/-- A sanitize log that can be read, that says that the sanitize is in progress and gives an estimate to divide by. -/
def saysInProgress (cfg : Config) (v : DriveView) (r : Reply) : Prop :=
  r.ec.isError = false ∧ (SanitizeLogPage.parse r.payload.bytes).res = NVME_SANITIZE_SSTAT_STATUS_IN_PROGESS ∧
    ¬ ZeroEstimate cfg v r.payload.bytes

instance : Decidable (saysInProgress cfg v r) := inferInstanceAs (Decidable (_ ∧ _))

theorem coherent_started (hc : c.isSanitize = true) (hprogress : v.props.progress ≠ 100)
    (h : replied cfg v c r = some v') : v'.Coherent := by
  cases c with
  | sanitize ctrl type passes =>
      obtain rfl := Option.some.inj h
      split
      · exact ⟨by simp [DriveView.sanitizeFailed], by simp [DriveView.sanitizeFailed, hprogress]⟩
      · exact ⟨by simp [DriveView.updateSanitizeStatus], by simp [DriveView.updateSanitizeStatus, hprogress]⟩
  | scan | identify | portInformation | health | smart | sanitizeLog => cases hc

theorem not_coherent_started (hc : c.isSanitize = true) (hprogress : v.props.progress = 100)
    (h : replied cfg v c r = some v') : ¬ v'.Coherent := by
  intro hv
  have hcompleted := hv.progress
  cases c with
  | sanitize ctrl type passes =>
      obtain rfl := Option.some.inj h
      split at hcompleted
      · simp [DriveView.sanitizeFailed, hprogress] at hcompleted
      · simp [DriveView.updateSanitizeStatus, hprogress] at hcompleted
  | scan | identify | portInformation | health | smart | sanitizeLog => cases hc

theorem coherent_replied (hv : v.Coherent) (hc : c.isSanitize = false)
    (hlog : ∀ ctrl, c = .sanitizeLog ctrl → saysInProgress cfg v r → v.props.status ≠ .completed)
    (h : replied cfg v c r = some v') : v'.Coherent := by
  cases c with
  | scan | portInformation | health | smart =>
      exact hv.congr (DriveView.sanitizeState_congr (sanitizeMembers_replied (by exact trivial) h))
  | identify ctrl =>
      obtain rfl := Option.some.inj h
      split
      · exact hv
      · exact hv.congr rfl
  | sanitizeLog ctrl =>
      rcases replied_sanitizeLog_cases h with ⟨_, rfl⟩ | ⟨herr, ⟨_, rfl⟩ | ⟨hres, hpercent⟩⟩
      · exact hv
      · exact DriveView.coherent_sanitizeEnded hv
      · have hestimate : ¬ ZeroEstimate cfg v r.payload.bytes := by
          intro hzero
          rw [updatePercent_eq_none_iff.mpr hzero.2] at hpercent
          cases hpercent
        exact DriveView.coherent_updatePercent hv (hlog ctrl rfl ⟨herr, hres, hestimate⟩) hpercent
  | sanitize ctrl type passes => cases hc

theorem not_coherent_replied {ctrl : Ctrl} (hlog : saysInProgress cfg v r) (hstatus : v.props.status = .completed)
    (h : replied cfg v (.sanitizeLog ctrl) r = some v') : ¬ v'.Coherent := by
  obtain ⟨herr, hres, _⟩ := hlog
  rcases replied_sanitizeLog_cases h with ⟨herr', _⟩ | ⟨_, ⟨hres', _⟩ | ⟨_, hpercent⟩⟩
  · rw [herr] at herr'
    cases herr'
  · exact absurd hres hres'
  · exact DriveView.not_coherent_updatePercent hstatus hpercent

end NVMeDevice

/-! ## Runs -/

/-- A callback that answers a sanitize command while the percentage is 100, or a log that says of a complete sanitize that
it is in progress. -/
def Pending.Breaks (cfg : Config) (v : DriveView) (q : Pending) : Prop :=
  match q.command with
  | .sanitize .. => v.props.progress = 100
  | .sanitizeLog _ => NVMeDevice.saysInProgress cfg v q.reply ∧ v.props.status = .completed
  | _ => False

instance (cfg : Config) (v : DriveView) (q : Pending) : Decidable (q.Breaks cfg v) :=
  match q with
  | ⟨.sanitize .., _, _⟩ => inferInstanceAs (Decidable (v.props.progress = 100))
  | ⟨.sanitizeLog _, r, _⟩ => inferInstanceAs (Decidable (NVMeDevice.saysInProgress cfg v r ∧ v.props.status = .completed))
  | ⟨.scan, _, _⟩ | ⟨.identify _, _, _⟩ | ⟨.portInformation, _, _⟩ | ⟨.health, _, _⟩ | ⟨.smart _, _, _⟩ =>
    inferInstanceAs (Decidable False)

namespace Process
variable {cfg : Config} {p p' p'' : Process} {e : Event} {q : Pending} {rest : List Pending}

/-- The next callback leaves the sanitize state in disagreement. -/
def Breaks (cfg : Config) (p : Process) : Event → Prop
  | .deliver => ∃ q ∈ p.drive.intf.io.head?, q.Breaks cfg p.drive.toDriveView
  | _ => False

instance (e : Event) : Decidable (p.Breaks cfg e) :=
  match e with
  | .deliver => inferInstanceAs (Decidable (∃ q ∈ p.drive.intf.io.head?, q.Breaks cfg p.drive.toDriveView))
  | .initializeDrive | .inventory .. | .writeFault .. | .erase .. | .expire | .tick | .execute .. =>
    inferInstanceAs (Decidable False)

theorem breaks_deliver (hio : p.drive.intf.io = q :: rest) :
    p.Breaks cfg .deliver ↔ q.Breaks cfg p.drive.toDriveView := by
  simp [Breaks, hio]

theorem progress_of_not_breaks (hio : p.drive.intf.io = q :: rest) (hq : q.command.isSanitize = true)
    (hok : ¬ p.Breaks cfg .deliver) : p.drive.props.progress ≠ 100 := by
  rw [breaks_deliver hio, Pending.Breaks] at hok
  cases hc : q.command with
  | sanitize ctrl type passes =>
      rw [hc] at hok
      exact hok
  | scan | identify | portInformation | health | smart | sanitizeLog =>
      rw [hc] at hq
      cases hq

theorem coherent_of_started (hio : p.drive.intf.io = q :: rest) (hq : q.command.isSanitize = true)
    (hok : ¬ p.Breaks cfg .deliver) (h : p.Step cfg .deliver p') : p'.drive.Coherent := by
  cases (turn_of_step h).2 with
  | deliver hio' hhandle =>
      obtain ⟨rfl, rfl⟩ := List.cons.inj (hio.symm.trans hio')
      have hview := NVMeDevice.handle_view hhandle
      exact NVMeDevice.coherent_started hq (progress_of_not_breaks hio hq hok) hview
  | abort hio' hnone =>
      obtain ⟨rfl, rfl⟩ := List.cons.inj (hio.symm.trans hio')
      obtain ⟨ctrl, hc, _⟩ := NVMeDevice.handle_eq_none hnone
      rw [hc] at hq
      cases hq

theorem coherent_of_turn (hp : p.drive.Coherent) (hok : ¬ p.Breaks cfg e) (h : Turn cfg p e p') :
    p'.drive.Coherent := by
  cases h with
  | initializeDrive | writeFault => exact hp.congr rfl
  | inventory => exact hp.congr (DriveView.sanitizeState_congr (NVMeDevice.sanitizeMembers_inventory _ _))
  | tick => exact hp.congr (DriveView.sanitizeState_congr NVMeDevice.sanitizeMembers_tick)
  | refused | expire | execute | abort => exact hp
  | erased herase =>
      obtain ⟨_, ⟨_, rfl⟩ | ⟨_, rfl⟩⟩ := NVMeDevice.erase_eq_ok herase
      · exact hp
      · exact hp
  | @deliver q rest d hio hhandle =>
      have hview := NVMeDevice.handle_view hhandle
      cases hc : q.command.isSanitize with
      | true => exact NVMeDevice.coherent_started hc (progress_of_not_breaks hio hc hok) hview
      | false =>
          refine NVMeDevice.coherent_replied ?_ hc (fun ctrl hlog hreads hstatus => ?_) hview
          · exact hp
          · rw [breaks_deliver hio, Pending.Breaks, hlog] at hok
            exact hok ⟨hreads, hstatus⟩

/-- **Progress.** Once the answer to a sanitize command has been handled, and as long as no step breaks it, `inProgress`
says whether the status is in progress, and the percentage is 100 exactly if the status is complete. -/
theorem coherent_of_run {es : List Event} (hio : p.drive.intf.io = q :: rest) (hq : q.command.isSanitize = true)
    (hok : ¬ p.Breaks cfg .deliver) (h : p.Step cfg .deliver p')
    (hrun : Run (guarded (fun p e => ¬ p.Breaks cfg e) (Step cfg)) p' es p'') :
    (p''.drive.inProgress = true ↔ p''.drive.props.status = .inProgress) ∧
      (p''.drive.props.progress = 100 ↔ p''.drive.props.status = .completed) := by
  have hcoherent : p''.drive.Coherent := by
    refine hrun.guarded_invariant (fun p => p.drive.Coherent) (coherent_of_started hio hq hok h) ?_
    intro s e s' hs hsok hstep
    exact coherent_of_turn hs hsok (turn_of_step hstep).2
  exact ⟨hcoherent.inProgress, hcoherent.progress⟩

/-- A step that breaks the agreement leaves the three in disagreement, whatever they were. -/
theorem incoherent_of_breaks (hbreaks : p.Breaks cfg e) (h : p.Step cfg e p') : ¬ p'.drive.Coherent := by
  cases (turn_of_step h).2 with
  | @deliver q rest d hio hhandle =>
      have hview := NVMeDevice.handle_view hhandle
      rw [breaks_deliver hio, Pending.Breaks] at hbreaks
      cases hc : q.command with
      | sanitize ctrl type passes =>
          rw [hc] at hbreaks hview
          exact NVMeDevice.not_coherent_started rfl hbreaks hview
      | sanitizeLog ctrl =>
          rw [hc] at hbreaks hview
          exact NVMeDevice.not_coherent_replied hbreaks.1 hbreaks.2 hview
      | scan | identify | portInformation | health | smart =>
          rw [hc] at hbreaks
          exact hbreaks.elim
  | @abort q rest hio hnone =>
      obtain ⟨ctrl, hc, _, hzero⟩ := NVMeDevice.handle_eq_none hnone
      rw [breaks_deliver hio, Pending.Breaks, hc] at hbreaks
      exact absurd hzero hbreaks.1.2.2
  | initializeDrive | inventory | writeFault | refused | erased | expire | tick | execute => exact hbreaks.elim

/-! ## A second sanitize -/

def completeDrive : Libnvme := .writing fun _ call =>
  match call with
  | .getLogSanitize _ => { data := [0, 0, 1, 0] }
  | _ => { handles := [7], data := zeros 328 ++ [1] }

def acceptedRun : List Event :=
  [.initializeDrive, .execute completeDrive 0, .deliver, .execute completeDrive 0, .deliver, .execute completeDrive 0,
    .deliver, .erase 0 .cryptoErase, .execute completeDrive 0]

/-- The sanitize is polled, and it is complete. -/
def completedRun : List Event := [.expire, .tick, .execute completeDrive 0, .deliver]

/-- The theorem at a sanitize that is accepted and completes. -/
theorem coherent_of_run_completed : ∃ p p' p'', Run (Step .standard) first acceptedRun p ∧ p.Step .standard .deliver p' ∧
    Run (guarded (fun p e => ¬ p.Breaks .standard e) (Step .standard)) p' completedRun p'' ∧
    (p''.drive.inProgress = true ↔ p''.drive.props.status = .inProgress) ∧
      (p''.drive.props.progress = 100 ↔ p''.drive.props.status = .completed) := by
  have hfacts : (acceptedRun.foldlM (next .standard) first).any (fun p =>
      (p.drive.intf.io.head?.any fun q => q.command.isSanitize) && !decide (p.Breaks .standard .deliver) &&
        (p.next .standard .deliver).any fun p' => (completedRun.foldlM
          (fun p e => if ¬ p.Breaks .standard e then p.next .standard e else none) p').isSome) = true := by
    decide +kernel
  obtain ⟨p, hp, hfacts⟩ := (Option.any_eq_true _ _).mp hfacts
  rw [Bool.and_eq_true, Bool.and_eq_true, Bool.not_eq_true', decide_eq_false_iff_not] at hfacts
  obtain ⟨⟨hhead, hok⟩, hnext⟩ := hfacts
  obtain ⟨q, hq, hsanitize⟩ := (Option.any_eq_true _ _).mp hhead
  obtain ⟨rest, hio⟩ := List.head?_eq_some_iff.mp hq
  obtain ⟨p', hp', hcompleted⟩ := (Option.any_eq_true _ _).mp hnext
  obtain ⟨p'', hp''⟩ := Option.isSome_iff_exists.mp hcompleted
  have hrun := Run.guarded_of_foldlM hp''
  exact ⟨p, p', p'', Run.of_foldlM hp, hp', hrun, coherent_of_run hio hsanitize hok hp' hrun⟩

/-- A client then asks for a second sanitize, and the drive accepts it. -/
def secondRun : List Event :=
  acceptedRun ++ .deliver :: completedRun ++ [.erase 0 .cryptoErase, .execute completeDrive 0]

/-- The second sanitize is shown in progress, at the percentage of the first. -/
theorem second_sanitize_at_complete : ∃ p p', Run (Step .standard) first secondRun p ∧ p.Step .standard .deliver p' ∧
    ¬ (p'.drive.props.progress = 100 ↔ p'.drive.props.status = .completed) := by
  have hfacts : (secondRun.foldlM (next .standard) first).any (fun p => (p.next .standard .deliver).any fun p' =>
      p'.drive.props.progress = 100 && p'.drive.props.status = .inProgress) = true := by
    decide +kernel
  obtain ⟨p, hp, hfacts⟩ := (Option.any_eq_true _ _).mp hfacts
  obtain ⟨p', hp', hfacts⟩ := (Option.any_eq_true _ _).mp hfacts
  rw [Bool.and_eq_true, decide_eq_true_eq, decide_eq_true_eq] at hfacts
  refine ⟨p, p', Run.of_foldlM hp, hp', fun h => ?_⟩
  have hcompleted := h.mp hfacts.1
  rw [hfacts.2] at hcompleted
  cases hcompleted

end Process
end NvmeManager
