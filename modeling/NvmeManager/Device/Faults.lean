import NvmeManager.Device.Status

/-!
# The fault properties

* `ShowsFaults` : the five fault properties and `smartWarnings` show a byte of the drive and the injected faults;
* `Monitor.Described` : the invariant: the remembered warning describes what is published, once a SMART read has been
  seen; before that it is the sentinel `0xff`, which describes nothing;
* `Monitor.Sentinel` : the first SMART read, when its effective byte is the sentinel;
* `faults_shown` : in a run without such a read every SMART read shows the faults; `not_shown_of_sentinel` : such a read
  does not, on a drive that does not show `255` to begin with.
-/

namespace NvmeManager

/-- The published faults are those of a byte of the drive and those that clients have set. -/
structure ShowsFaults (v : DriveView) (byte : UInt8) (injected : Fault → Bool) : Prop where
  faults : ∀ f, v.props.faults f = (decide (byte &&& f.bit ≠ 0) || injected f)
  smartWarnings : v.props.smartWarnings = toString (byte ||| faultBits injected).toNat

namespace Monitor
variable {cfg : Config} {m m' : Monitor} {e : StatusEvent}

/-- The first SMART read, with the effective warning that the drive remembers from the start. -/
def Sentinel (m : Monitor) : StatusEvent → Prop
  | .smart log => m.seen.warning = none ∧ m.seen.effective log = 0xff
  | _ => False

instance (m : Monitor) (e : StatusEvent) : Decidable (m.Sentinel e) :=
  match e with
  | .smart _ => inferInstanceAs (Decidable (_ ∧ _))
  | .health _ | .writeFault .. | .inventory .. => inferInstanceAs (Decidable False)

/-- The remembered warning is the effective one of the latest read, and describes what is published. -/
structure Described (m : Monitor) : Prop where
  errs : m.drive.errs = m.seen.injected
  sentinel : m.seen.warning = none → m.drive.smartWarning = 0xff
  remembered : ∀ w ∈ m.seen.warning, m.drive.smartWarning = w
  faults : ∀ w ∈ m.seen.warning, m.drive.props.faults = fun f => decide (w &&& f.bit ≠ 0)
  smartWarnings : ∀ w ∈ m.seen.warning, m.drive.props.smartWarnings = toString w.toNat

theorem described_start (props : NvmeInterfaces) (u : Uninitialised) (eid : UInt8) (bus : UInt32) (path : String)
    (timeout : Option Nat) : (start cfg props u eid bus path timeout).Described where
  errs := rfl
  sentinel := fun _ => rfl
  remembered := nofun
  faults := nofun
  smartWarnings := nofun

theorem Described.remembers (hd : m.Described) : m.Remembers := by
  refine ⟨hd.errs, ?_⟩
  cases hseen : m.seen.warning with
  | none => exact hd.sentinel hseen
  | some w => exact hd.remembered w hseen

/-- What is remembered does not say what is published. -/
theorem described_of_remembers (hr : m.Remembers)
    (hfaults : ∀ w ∈ m.seen.warning, m.drive.props.faults = fun f => decide (w &&& f.bit ≠ 0))
    (htext : ∀ w ∈ m.seen.warning, m.drive.props.smartWarnings = toString w.toNat) : m.Described := by
  refine ⟨hr.errs, fun hnone => ?_, fun w hw => ?_, hfaults, htext⟩
  · rw [hr.smartWarning, hnone]
    rfl
  · rw [hr.smartWarning, Option.mem_def.mp hw]
    rfl

theorem described_frame (hd : m.Described) (hr : m'.Remembers) (hseen : m'.seen.warning = m.seen.warning)
    (hfaults : m'.drive.props.faults = m.drive.props.faults)
    (htext : m'.drive.props.smartWarnings = m.drive.props.smartWarnings) : m'.Described := by
  refine described_of_remembers hr ?_ ?_
  · rw [hseen, hfaults]
    exact hd.faults
  · rw [hseen, htext]
    exact hd.smartWarnings

/-- A SMART read that is not the sentinel's: either it changes the warning, or the warning was described before. -/
theorem described_smart {log : List UInt8} (hd : m.Described) (hok : ¬ m.Sentinel (.smart log)) :
    Described ⟨m.drive.apply cfg (.smart log), m.seen.next (.smart log)⟩ := by
  have heff := hd.remembers.effectiveWarning log
  have hr : Remembers ⟨m.drive.apply cfg (.smart log), m.seen.next (.smart log)⟩ := remembers_of_step hd.remembers rfl
  by_cases hsame : m.seen.effective log = m.drive.smartWarning
  · have hview : (m.drive.apply cfg (.smart log)).toDriveView = m.drive.toDriveView := by
      rw [NVMeDevice.view_apply_smart]
      exact DriveView.smartUpdate_same (heff.trans hsame)
    -- nothing is written, so a byte must have been described already
    obtain ⟨w, hw⟩ : ∃ w, w ∈ m.seen.warning := by
      cases hseen : m.seen.warning with
      | some w => exact ⟨w, rfl⟩
      | none => exact absurd ⟨hseen, hsame.trans (hd.sentinel hseen)⟩ hok
    have hweq : w = m.seen.effective log := by rw [hsame, hd.remembered w hw]
    subst hweq
    refine described_of_remembers hr ?_ ?_
    · rintro _ ⟨⟩
      rw [hview]
      exact hd.faults _ hw
    · rintro _ ⟨⟩
      rw [hview]
      exact hd.smartWarnings _ hw
  · have hshown : DriveView.Shown m.drive.toDriveView (m.drive.apply cfg (.smart log)).toDriveView _ :=
      DriveView.smartUpdate_changed heff hsame
    refine described_of_remembers hr ?_ ?_
    · rintro _ ⟨⟩
      exact hshown.faults
    · rintro _ ⟨⟩
      exact hshown.smartWarnings

theorem described_of_step (hd : m.Described) (hok : ¬ m.Sentinel e) (h : m.Step cfg e m') : m'.Described := by
  have hr := remembers_of_step hd.remembers h
  obtain rfl := h
  cases e with
  | smart log => exact described_smart hd hok
  | health ss =>
      obtain ⟨_, _, hfaults, htext⟩ :
          (m.drive.healthUpdate cfg ss).smartWarning = m.drive.smartWarning ∧ _ := DriveView.healthUpdate_frame ss
      exact described_frame hd hr rfl hfaults htext
  | writeFault f value => exact described_frame hd hr rfl rfl rfl
  | inventory form driveAssoc =>
      obtain ⟨_, _, _, _, hfaults, htext⟩ := m.drive.inventory_frame form driveAssoc
      exact described_frame hd hr rfl hfaults htext

section
variable {props : NvmeInterfaces} {u : Uninitialised} {eid : UInt8} {bus : UInt32} {path : String}
  {timeout : Option Nat}

theorem described_of_run {es : List StatusEvent}
    (hrun : Run (guarded (fun m e => ¬ m.Sentinel e) (Step cfg)) (start cfg props u eid bus path timeout) es m) :
    m.Described :=
  hrun.guarded_invariant Described (described_start props u eid bus path timeout)
    fun _ _ _ hd hok h => described_of_step hd hok h

/-- A first SMART read whose effective byte is the sentinel publishes nothing. -/
theorem not_shown_of_sentinel {log : List UInt8} (hd : m.Described) (hs : m.Sentinel (.smart log))
    (htext : m.drive.props.smartWarnings ≠ toString (0xff : UInt8).toNat) :
    ¬ ShowsFaults (m.drive.apply cfg (.smart log)).toDriveView (byteAt log 0) m.seen.injected := by
  intro hshows
  have hsame : m.drive.effectiveWarning (byteAt log 0) = m.drive.smartWarning := by
    rw [hd.remembers.effectiveWarning, hs.2, hd.sentinel hs.1]
  have htext' := hshows.smartWarnings
  rw [NVMeDevice.view_apply_smart, DriveView.smartUpdate_same hsame] at htext'
  change _ = toString (m.seen.effective log).toNat at htext'
  rw [hs.2] at htext'
  exact htext htext'

/-- **Faults.** In a run whose first SMART read is not the sentinel's, every SMART read publishes each fault as the bit
of the drive or the value that a client has written last, and `smartWarnings` as the decimal of both. -/
theorem faults_shown {es : List StatusEvent} {log : List UInt8}
    (hrun : Run (guarded (fun m e => ¬ m.Sentinel e) (Step cfg)) (start cfg props u eid bus path timeout) es m)
    (hok : ¬ m.Sentinel (.smart log)) (h : m.Step cfg (.smart log) m') :
    ShowsFaults m'.drive.toDriveView (byteAt log 0) m.seen.injected := by
  have hd' := described_of_step (described_of_run hrun) hok h
  have hw : m.seen.effective log ∈ m'.seen.warning := by
    rw [show m' = _ from h]
    rfl
  refine ⟨fun f => ?_, hd'.smartWarnings _ hw⟩
  rw [hd'.faults _ hw]
  dsimp only
  rw [Bool.eq_iff_iff, decide_eq_true_iff, Bool.or_eq_true, decide_eq_true_iff]
  exact effective_bit m.seen.injected (byteAt log 0) f

end

/-- The theorem at a client that sets the temperature fault and a SMART read that reports a degraded drive. -/
theorem faults_shown_both :
    ShowsFaults (((first.drive.apply .standard (.writeFault .temperature true)).apply .standard (.smart [4])).toDriveView)
      4 (Function.update (fun _ => false) .temperature true) := by
  have hrun : Run (guarded (fun m e => ¬ m.Sentinel e) (Step .standard)) first [.writeFault .temperature true]
      ⟨first.drive.apply .standard (.writeFault .temperature true), first.seen.next (.writeFault .temperature true)⟩ :=
    Run.nil.snoc ⟨by decide, rfl⟩
  exact faults_shown hrun (by decide) rfl

/-- A first SMART read that reports `0xff` : no fault is published. -/
theorem first_warning_hidden :
    ¬ ShowsFaults (first.drive.apply .standard (.smart [0xff])).toDriveView 0xff fun _ => false := by
  intro hshows
  have hfault := hshows.faults .temperature
  cases hfault

end Monitor
end NvmeManager
