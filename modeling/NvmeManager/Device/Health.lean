import NvmeManager.Device.Status

/-!
# The published health

Two writers share the property `Health` : `markFunctional` when the functional state changes, and the SMART callback
when the effective warning changes.

* `Observer.verdict` : the health that the polls so far call for; a drive nobody has polled is good;
* `Monitor.Agrees` : the invariant: the drive remembers what the observer has seen, and publishes the verdict;
* `Monitor.Masks` : the polls at which one writer hides what the other one had to say;
* `health_of_run` : in a run without such a poll the health is right after both kinds of poll; `not_verdict_of_masks` :
  after such a poll it is not the verdict.
-/

namespace NvmeManager

/-- The health a drive has to show: critical while it is not functional, else a warning while its byte is not zero. -/
def healthOf (functional : Bool) (warning : UInt8) : HealthType :=
  if functional = false then .critical else if warning ≠ 0 then .warning else .ok

/-- The health that the polls so far call for. -/
def Observer.verdict (o : Observer) : HealthType := healthOf (o.functional.getD true) (o.warning.getD 0)

namespace Monitor
variable {cfg : Config} {m m' : Monitor} {e : StatusEvent}

/-- The poll is answered by the writer of one half of the health, and hides the other half: a drive turns functional
again while its warning byte is not zero, its warning byte changes while it is not functional, or its first warning byte
is the one that it remembers from the start. -/
def Masks (m : Monitor) : StatusEvent → Prop
  | .health ss => ss.isFunctional = true ∧ m.seen.functional = some false ∧ m.seen.warning.getD 0 ≠ 0
  | .smart log =>
    (m.seen.functional = some false ∧ m.seen.effective log ≠ m.seen.warning.getD 0xff) ∨
      (m.seen.functional ≠ some false ∧ m.seen.warning = none ∧ m.seen.effective log = 0xff)
  | _ => False

instance (m : Monitor) (e : StatusEvent) : Decidable (m.Masks e) :=
  match e with
  | .health _ => inferInstanceAs (Decidable (_ ∧ _))
  | .smart _ => inferInstanceAs (Decidable (_ ∨ _))
  | .writeFault .. | .inventory .. => inferInstanceAs (Decidable False)

/-- The drive remembers what has been seen, and publishes the verdict. -/
structure Agrees (m : Monitor) : Prop where
  errs : m.drive.errs = m.seen.injected
  functional : m.drive.driveFunctional = m.seen.functional.getD true
  remembered : m.drive.smartWarning = m.seen.warning.getD 0xff
  health : m.drive.props.health = m.seen.verdict

theorem agrees_start (props : NvmeInterfaces) (u : Uninitialised) (eid : UInt8) (bus : UInt32) (path : String)
    (timeout : Option Nat) : (start cfg props u eid bus path timeout).Agrees := ⟨rfl, rfl, rfl, rfl⟩

theorem Agrees.remembers (ha : m.Agrees) : m.Remembers := ⟨ha.errs, ha.remembered⟩

theorem getD_true_eq_false {o : Option Bool} : o.getD true = false ↔ o = some false := by
  cases o with
  | none => simp
  | some b => simp

theorem healthOf_functional {functional : Bool} {warning : UInt8} (h : functional ≠ false) :
    healthOf functional warning = if warning ≠ 0 then .warning else .ok := if_neg h

/-! ## Polls -/

theorem health_healthUpdate_same {v : DriveView} {ss : HealthStatus} (h : v.driveFunctional = ss.isFunctional) :
    (v.healthUpdate cfg ss).props.health = v.props.health := by
  unfold DriveView.healthUpdate
  dsimp only
  change (DriveView.markFunctional cfg _ ss.isFunctional).props.health = _
  rw [← h]
  rw [DriveView.markFunctional_same]

theorem health_healthUpdate_changed {v : DriveView} {ss : HealthStatus} (h : v.driveFunctional ≠ ss.isFunctional) :
    (v.healthUpdate cfg ss).props.health = if ss.isFunctional then .ok else .critical :=
  DriveView.markFunctional_changed h

theorem agrees_health {ss : HealthStatus} (ha : m.Agrees) (hok : ¬ m.Masks (.health ss)) :
    Agrees ⟨m.drive.apply cfg (.health ss), m.seen.next (.health ss)⟩ := by
  have hr : Remembers ⟨m.drive.apply cfg (.health ss), m.seen.next (.health ss)⟩ := remembers_of_step ha.remembers rfl
  refine ⟨hr.errs, rfl, hr.smartWarning, ?_⟩
  rw [NVMeDevice.view_apply_health]
  change _ = healthOf ss.isFunctional (m.seen.warning.getD 0)
  by_cases hsame : m.drive.driveFunctional = ss.isFunctional
  · rw [health_healthUpdate_same hsame, ha.health, Observer.verdict, ← ha.functional, hsame]
  · rw [health_healthUpdate_changed hsame]
    cases hss : ss.isFunctional with
    | false => rfl
    | true =>
        have hfalse : m.seen.functional = some false := by
          rw [← getD_true_eq_false, ← ha.functional]
          simpa [hss] using hsame
        have hzero : m.seen.warning.getD 0 = 0 := by
          by_contra hne
          exact hok ⟨hss, hfalse, hne⟩
        rw [hzero]
        rfl

theorem agrees_smart {log : List UInt8} (ha : m.Agrees) (hok : ¬ m.Masks (.smart log)) :
    Agrees ⟨m.drive.apply cfg (.smart log), m.seen.next (.smart log)⟩ := by
  have heff := ha.remembers.effectiveWarning log
  have hr : Remembers ⟨m.drive.apply cfg (.smart log), m.seen.next (.smart log)⟩ := remembers_of_step ha.remembers rfl
  refine ⟨hr.errs, ?_, hr.smartWarning, ?_⟩
  · rw [NVMeDevice.view_apply_smart, DriveView.driveFunctional_smartUpdate]
    exact ha.functional
  · rw [NVMeDevice.view_apply_smart]
    change _ = healthOf (m.seen.functional.getD true) (m.seen.effective log)
    by_cases hsame : m.seen.effective log = m.drive.smartWarning
    · rw [DriveView.smartUpdate_same (heff.trans hsame), ha.health, Observer.verdict]
      by_cases hfun : m.seen.functional.getD true = false
      · rw [hfun]
        rfl
      · rw [healthOf_functional hfun, healthOf_functional hfun, hsame, ha.remembered]
        cases hseen : m.seen.warning with
        | some w => rfl
        | none =>
            have hff : m.seen.effective log = 0xff := by rw [hsame, ha.remembered, hseen]; rfl
            exact absurd (.inr ⟨fun hsome => hfun (getD_true_eq_false.mpr hsome), hseen, hff⟩) hok
    · rw [(DriveView.smartUpdate_changed heff hsame).health]
      have hfun : m.seen.functional.getD true ≠ false := by
        intro hfalse
        refine hok (.inl ⟨getD_true_eq_false.mp hfalse, ?_⟩)
        rwa [← ha.remembered]
      rw [healthOf_functional hfun]

theorem agrees_of_step (ha : m.Agrees) (hok : ¬ m.Masks e) (h : m.Step cfg e m') : m'.Agrees := by
  have hr := remembers_of_step ha.remembers h
  obtain rfl := h
  cases e with
  | health ss => exact agrees_health ha hok
  | smart log => exact agrees_smart ha hok
  | writeFault f value => exact ⟨hr.errs, ha.functional, hr.smartWarning, ha.health⟩
  | inventory form driveAssoc =>
      obtain ⟨_, hfunctional, _, hhealth, _, _⟩ := m.drive.inventory_frame form driveAssoc
      exact ⟨hr.errs, hfunctional.trans ha.functional, hr.smartWarning, hhealth.trans ha.health⟩

/-- After a poll that masks, the published health is not the verdict. -/
theorem not_verdict_of_masks (ha : m.Agrees) (hmasks : m.Masks e) (h : m.Step cfg e m') :
    m'.drive.props.health ≠ m'.seen.verdict := by
  obtain rfl := h
  cases e with
  | health ss =>
      obtain ⟨hss, hfalse, hne⟩ := hmasks
      have hchanged : m.drive.driveFunctional ≠ ss.isFunctional := by
        rw [ha.functional, hfalse, hss]
        decide
      have hverdict : (m.seen.next (.health ss)).verdict = .warning := by
        change healthOf ss.isFunctional (m.seen.warning.getD 0) = .warning
        rw [hss, healthOf_functional (by decide), if_pos hne]
      rw [hverdict, NVMeDevice.view_apply_health, health_healthUpdate_changed hchanged, hss]
      decide
  | smart log =>
      have heff := ha.remembers.effectiveWarning log
      rw [NVMeDevice.view_apply_smart]
      change _ ≠ healthOf (m.seen.functional.getD true) (m.seen.effective log)
      rcases hmasks with ⟨hfalse, hne⟩ | ⟨hfun, hnone, hff⟩
      · rw [← ha.remembered] at hne
        rw [(DriveView.smartUpdate_changed heff hne).health, hfalse]
        change _ ≠ HealthType.critical
        split
        · decide
        · decide
      · have hsame : m.drive.effectiveWarning (byteAt log 0) = m.drive.smartWarning := by
          rw [heff, hff, ha.remembered, hnone]
          rfl
        have hgood : m.seen.functional.getD true ≠ false := fun hfalse => hfun (getD_true_eq_false.mp hfalse)
        rw [DriveView.smartUpdate_same hsame, ha.health, Observer.verdict, healthOf_functional hgood,
          healthOf_functional hgood, hnone, hff]
        decide
  | writeFault | inventory => exact hmasks.elim

/-! ## Runs -/

section
variable {props : NvmeInterfaces} {u : Uninitialised} {eid : UInt8} {bus : UInt32} {path : String}
  {timeout : Option Nat}

theorem agrees_of_run {es : List StatusEvent}
    (hrun : Run (guarded (fun m e => ¬ m.Masks e) (Step cfg)) (start cfg props u eid bus path timeout) es m) :
    m.Agrees :=
  hrun.guarded_invariant Agrees (agrees_start props u eid bus path timeout)
    fun _ _ _ ha hok h => agrees_of_step ha hok h

/-- **Health.** In a run without a poll that masks, once there has been a poll of each kind the health is critical if the
latest health poll said that the drive is not functional, else a warning if the latest warning byte is not zero. -/
theorem health_of_run {es : List StatusEvent} {functional : Bool} {warning : UInt8}
    (hrun : Run (guarded (fun m e => ¬ m.Masks e) (Step cfg)) (start cfg props u eid bus path timeout) es m)
    (hfun : m.seen.functional = some functional) (hwarning : m.seen.warning = some warning) :
    m.drive.props.health =
      if functional = false then .critical else if warning ≠ 0 then .warning else .ok := by
  rw [(agrees_of_run hrun).health, Observer.verdict, hfun, hwarning]
  rfl

end

/-- The theorem at a drive that reports a warning and then fails. -/
theorem health_of_run_failed :
    (((first.drive.apply .standard (.health ⟨0x20, 1⟩)).apply .standard (.smart [4])).apply .standard
      (.health ⟨0, 1⟩)).props.health = .critical := by
  let m₁ : Monitor := ⟨first.drive.apply .standard (.health ⟨0x20, 1⟩), first.seen.next (.health ⟨0x20, 1⟩)⟩
  let m₂ : Monitor := ⟨m₁.drive.apply .standard (.smart [4]), m₁.seen.next (.smart [4])⟩
  let m₃ : Monitor := ⟨m₂.drive.apply .standard (.health ⟨0, 1⟩), m₂.seen.next (.health ⟨0, 1⟩)⟩
  have hrun₁ : Run (guarded (fun m e => ¬ m.Masks e) (Step .standard)) first [.health ⟨0x20, 1⟩] m₁ :=
    Run.nil.snoc ⟨by decide, rfl⟩
  have hrun₂ : Run (guarded (fun m e => ¬ m.Masks e) (Step .standard)) first [.health ⟨0x20, 1⟩, .smart [4]] m₂ :=
    hrun₁.snoc ⟨by decide, rfl⟩
  have hrun : Run (guarded (fun m e => ¬ m.Masks e) (Step .standard)) first
      [.health ⟨0x20, 1⟩, .smart [4], .health ⟨0, 1⟩] m₃ := hrun₂.snoc ⟨by decide, rfl⟩
  exact health_of_run hrun rfl rfl

/-- A drive that has failed reports a warning: its health is no longer critical. -/
theorem failed_drive_shown_warning : ∃ m,
    Run (Step .standard) first [.smart [0], .health ⟨0, 1⟩, .smart [4]] m ∧ m.seen.functional = some false ∧
      m.drive.props.health = .warning :=
  ⟨_, ((Run.nil.snoc rfl).snoc rfl).snoc rfl, rfl, rfl⟩

end Monitor
end NvmeManager
