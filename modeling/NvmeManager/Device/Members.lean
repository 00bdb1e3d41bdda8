import NvmeManager.Device.Drive

/-!
# The members of a sanitize

Most callbacks write the health, the link or the inventory of a drive. What a sanitize rests on is written by three:
the answers to an identify, to a sanitize command and to a read of the sanitize log.

* `SanitizeMembers` : the members and properties that these three write and read;
* `sanitizeMembers_markFunctional`, `sanitizeMembers_smartUpdate`, .. : the other writers leave them alone;
* `sanitizeMembers_replied` : and so do the other callbacks; `replied_sanitizeLog_cases` : what that of the log does.
-/

namespace NvmeManager

/-- What a drive publishes and remembers of its sanitizes. -/
structure SanitizeMembers where
  inProgress : Bool
  status : OperationStatus
  progress : UInt8
  operation : OperationType
  sanitizeCapability : List EraseMethod
  nodmmas : UInt32
  eraseType : EraseMethod
  estimatedTime : UInt32

namespace DriveView
variable {cfg : Config} {v : DriveView}

def sanitizeMembers (v : DriveView) : SanitizeMembers where
  inProgress := v.inProgress
  status := v.props.status
  progress := v.props.progress
  operation := v.props.operation
  sanitizeCapability := v.props.sanitizeCapability
  nodmmas := v.nodmmas
  eraseType := v.eraseType
  estimatedTime := v.estimatedTime

theorem sanitizeMembers_markFunctional (functional : Bool) :
    (v.markFunctional cfg functional).sanitizeMembers = v.sanitizeMembers := by
  unfold markFunctional
  by_cases h : v.driveFunctional = functional
  · rw [if_neg (not_not_intro h)]
    rfl
  · rw [if_pos h]
    cases functional with
    | false => rfl
    | true => rfl

theorem sanitizeMembers_smartUpdate (smart : List UInt8) :
    (v.smartUpdate cfg smart).sanitizeMembers = v.sanitizeMembers := by
  rcases smartUpdate_cases smart with h | ⟨cw, status, h⟩
  · rw [h]
  · rw [h]
    rfl

end DriveView

/-- The requests whose callback leaves these members alone. -/
def Command.Unrelated : Command → Prop
  | .scan | .portInformation | .health | .smart _ => True
  | .identify _ | .sanitizeLog _ | .sanitize .. => False

namespace NVMeDevice
variable {cfg : Config} {d : NVMeDevice} {v v' : DriveView} {c : Command} {r : Reply}

theorem sanitizeMembers_inventory (form driveAssoc : String) :
    (d.inventory form driveAssoc).sanitizeMembers = d.sanitizeMembers := by
  unfold inventory DriveView.updateFormFactor DriveView.updateDriveAssociations
  split
  · rfl
  · rfl

theorem sanitizeMembers_tick : (d.tick cfg).sanitizeMembers = d.sanitizeMembers := by
  unfold DriveView.sanitizeMembers
  rw [toDriveView_tick]
  split
  · rfl
  · rfl

theorem sanitizeMembers_replied (hc : c.Unrelated) (h : replied cfg v c r = some v') :
    v'.sanitizeMembers = v.sanitizeMembers := by
  unfold replied at h
  cases c with
  | scan =>
      obtain rfl := Option.some.inj h
      rfl
  | portInformation =>
      obtain rfl := Option.some.inj h
      split
      · rfl
      · rfl
  | health =>
      obtain rfl := Option.some.inj h
      split
      · rfl
      · exact DriveView.sanitizeMembers_markFunctional _
  | smart ctrl =>
      obtain rfl := Option.some.inj h
      split
      · rfl
      · exact DriveView.sanitizeMembers_smartUpdate _
  | identify | sanitizeLog | sanitize => exact hc.elim

theorem replied_sanitizeLog_cases {ctrl : Ctrl} (h : replied cfg v (.sanitizeLog ctrl) r = some v') :
    (r.ec.isError = true ∧ v' = v) ∨
      (r.ec.isError = false ∧
        ((SanitizeLogPage.parse r.payload.bytes).res ≠ NVME_SANITIZE_SSTAT_STATUS_IN_PROGESS ∧
            v' = v.sanitizeEnded (SanitizeLogPage.parse r.payload.bytes).res ∨
          (SanitizeLogPage.parse r.payload.bytes).res = NVME_SANITIZE_SSTAT_STATUS_IN_PROGESS ∧
            v.updatePercent cfg (v.estimate (SanitizeLogPage.parse r.payload.bytes)) = some v')) := by
  unfold replied at h
  dsimp only at h
  by_cases herr : r.ec.isError = true
  · rw [if_pos herr] at h
    exact .inl ⟨herr, (Option.some.inj h).symm⟩
  · rw [if_neg herr] at h
    refine .inr ⟨Bool.eq_false_iff.mpr herr, ?_⟩
    by_cases hres : (SanitizeLogPage.parse r.payload.bytes).res = NVME_SANITIZE_SSTAT_STATUS_IN_PROGESS
    · rw [if_neg (not_not_intro hres)] at h
      exact .inr ⟨hres, h⟩
    · rw [if_pos hres] at h
      exact .inl ⟨hres, (Option.some.inj h).symm⟩

end NVMeDevice
end NvmeManager
