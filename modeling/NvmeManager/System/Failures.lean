import NvmeManager.System.Names
import NvmeManager.System.Published

/-!
# The failures of a drive

* `Failures` : what an observer of the health polls knows: whether the drive works, and how often it has failed;
* `failure` : the entry of a failure; `Recorded` : the critical entries of a drive are one such entry for each
  of its failures; `recorded_replied` : a callback keeps it so;
* `recorded_of_run` : a drive reports its failures, each once, and nothing else as critical.
-/

namespace NvmeManager

/-- What the health polls have told. -/
structure Failures where
  works : Bool
  /-- How often the drive has failed after it worked. -/
  falls : Nat

namespace Failures

/-- A drive is taken to work until it tells otherwise. -/
def init : Failures := ⟨true, 0⟩

def next (f : Failures) (works : Bool) : Failures := ⟨works, f.falls + if f.works ∧ !works then 1 else 0⟩

def see (f : Failures) (q : Pending) : Failures :=
  match q.command with
  | .health => if q.reply.ec.isError then f else f.next (q.reply.payload.healthStatus.nss &&& 0x20 ≠ 0)
  | .scan | .identify _ | .portInformation | .smart _ | .sanitizeLog _ | .sanitize .. => f

end Failures

/-! ## Entries -/

def failure (driveIndex : String) : LogEntry where
  messageID := resourceErrorDetected
  severity := .critical
  messageArgs := redfishDriveName ++ driveIndex ++ "," ++ "Drive Failure"
  originOfCondition := redfishDrivePathPrefix ++ driveIndex
  resolution := driveFailureResolution
  logNamespace := "StorageDevice"

def LogEntry.isCritical (e : LogEntry) : Bool := e.severity = .critical

namespace DriveView
variable {cfg : Config} {v v' : DriveView} {name : String} {f : Failures}

/-- The drive remembers whether it works, and its critical entries are those of its failures. -/
structure Recorded (v : DriveView) (name : String) (f : Failures) : Prop where
  driveIndex : v.driveIndex = name
  functional : v.driveFunctional = f.works
  logs : v.logs.filter LogEntry.isCritical = List.replicate f.falls (failure name)

theorem Recorded.of_eq (h : v.Recorded name f) (hindex : v'.driveIndex = v.driveIndex)
    (hfunctional : v'.driveFunctional = v.driveFunctional) (hlogs : v'.logs = v.logs) : v'.Recorded name f :=
  ⟨hindex.trans h.driveIndex, hfunctional.trans h.functional, hlogs ▸ h.logs⟩

theorem filter_raised (v : DriveView) (cw : UInt8) : ((raised cw).map v.entry).filter LogEntry.isCritical = [] := by
  rw [List.filter_eq_nil_iff]
  intro e he
  obtain ⟨event, -, rfl⟩ := List.mem_map.mp he
  exact Bool.false_ne_true

theorem recorded_markFunctional (h : v.Recorded name f) (works : Bool) :
    (v.markFunctional cfg works).Recorded name (f.next works) := by
  unfold markFunctional Failures.next
  by_cases hsame : v.driveFunctional = works
  · have hworks : f.works = works := h.functional.symm.trans hsame
    rw [if_neg (not_not_intro hsame), hworks]
    refine ⟨h.driveIndex, rfl, ?_⟩
    cases works with
    | false | true => exact h.logs
  · have hworks : f.works = !works := by
      rw [← h.functional]
      exact Bool.eq_not.mpr hsame
    rw [if_pos hsame, hworks]
    cases works with
    | true => exact ⟨h.driveIndex, rfl, h.logs⟩
    | false =>
        refine ⟨h.driveIndex, rfl, ?_⟩
        change (v.logs ++ [failure v.driveIndex]).filter LogEntry.isCritical = List.replicate (f.falls + 1) (failure name)
        rw [List.filter_append, h.logs, h.driveIndex, List.replicate_succ']
        rfl

theorem recorded_replied {q : Pending} (h : v.Recorded name f)
    (hreplied : NVMeDevice.replied cfg v q.command q.reply = some v') : v'.Recorded name (f.see q) := by
  obtain ⟨c, r, n⟩ := q
  cases c with
  | scan =>
      obtain rfl := Option.some.inj hreplied
      exact h.of_eq rfl rfl rfl
  | identify | portInformation =>
      obtain rfl := Option.some.inj hreplied
      split
      · exact h
      · exact h.of_eq rfl rfl rfl
  | health =>
      obtain rfl := Option.some.inj hreplied
      by_cases herr : r.ec.isError = true
      · simp only [Failures.see, if_pos herr]
        exact h
      · simp only [Failures.see, if_neg herr]
        unfold healthUpdate
        refine recorded_markFunctional ?_ _
        exact h.of_eq rfl rfl rfl
  | smart ctrl =>
      obtain rfl := Option.some.inj hreplied
      split
      · exact h
      · have hcases : v.smartUpdate cfg r.payload.bytes = v ∨ _ := smartUpdate_cases r.payload.bytes
        rcases hcases with hsame | ⟨cw, status, hshown⟩
        · rw [hsame]
          exact h
        · rw [hshown]
          refine ⟨h.driveIndex, h.functional, ?_⟩
          dsimp only
          rw [logs_generateRedfishEventbySmart, List.filter_append, filter_raised, List.append_nil]
          exact h.logs
  | sanitizeLog ctrl =>
      rcases NVMeDevice.replied_sanitizeLog_cases hreplied with ⟨-, rfl⟩ | ⟨-, ⟨-, rfl⟩ | ⟨-, hpercent⟩⟩
      · exact h
      · unfold sanitizeEnded
        split
        · exact h.of_eq rfl rfl rfl
        · split
          · exact h.of_eq rfl rfl rfl
          · exact h
      · obtain ⟨_, _, -, rfl⟩ := updatePercent_eq_some hpercent
        exact h.of_eq rfl rfl rfl
  | sanitize ctrl type passes =>
      obtain rfl := Option.some.inj hreplied
      split
      · exact h.of_eq rfl rfl rfl
      · exact h.of_eq rfl rfl rfl

end DriveView

/-! ## Runs -/

namespace Failures
variable {cfg : Config} {o o' : Observed Failures} {e : Event} {name : String}

theorem recorded_of_step (h : o.proc.drive.toDriveView.Recorded name o.seen) (hstep : o.Step see cfg e o') :
    o'.proc.drive.toDriveView.Recorded name o'.seen := by
  obtain ⟨p', hprocess, rfl⟩ := hstep.eq
  have hredraw := Process.redraw_of_turn (Process.turn_of_step hprocess).2
  dsimp only
  generalize p'.drive.toDriveView = v at hredraw
  cases hredraw with
  | same hdeliver => rwa [Observed.learnt_of_ne hdeliver]
  | initialized hdeliver =>
      rw [Observed.learnt_of_ne hdeliver]
      exact h.of_eq rfl rfl rfl
  | inventory | writeFault => exact h.of_eq rfl rfl rfl
  | replied hio hreplied =>
      rw [Observed.learnt_deliver hio]
      exact DriveView.recorded_replied h hreplied
  | @divided q rest ctrl hio hc =>
      have hsame : o.seen.see q = o.seen := by
        unfold see
        rw [hc]
      rw [Observed.learnt_deliver hio, hsame]
      exact h

/-- **Failures.** In every run the critical entries that a drive has sent are one for each time that a health poll told
that it does not work after the one before had told that it did, or none had, and no other; all of them name the drive. -/
theorem recorded_of_run {props : NvmeInterfaces} {u : Uninitialised} {eid : UInt8} {bus : UInt32} {path : String}
    {timeout : Option Nat} {es : List Event}
    (hrun : Run (Observed.Step see cfg) (.start cfg init props u eid bus path timeout) es o) :
    o.proc.drive.logs.filter LogEntry.isCritical = List.replicate o.seen.falls (failure (filename path)) := by
  have h : o.proc.drive.toDriveView.Recorded (filename path) o.seen :=
    hrun.invariant (fun o => o.proc.drive.toDriveView.Recorded (filename path) o.seen) ⟨rfl, rfl, rfl⟩
      fun _ _ _ h hstep => recorded_of_step h hstep
  exact h.logs

/-- A drive with one controller, whose health is read with these status bits. -/
def reporting (nss : UInt8) : Libnvme :=
  .ok { handles := [7], data := zeros 512, port := ⟨1, 4, 8, 4, 4⟩, health := ⟨nss, 3⟩ }

def polledRun (polls : List UInt8) : List Event :=
  [.initializeDrive] ++ (List.replicate 3 [.execute (reporting 0x20) 0, .deliver]).flatten ++
    polls.flatMap fun nss =>
      [.expire, .tick, .execute (reporting nss) 0, .execute (reporting nss) 0, .deliver, .deliver]

/-- The theorem at a drive that fails, still does not work, works again and fails again. -/
theorem recorded_of_run_twice : ∃ o : Observed Failures,
    Run (Observed.Step see .standard) (.start .standard init default default 10 3 Process.first.drive.objPath (some 5000))
      (polledRun [0, 0, 0x20, 0]) o ∧
    o.proc.drive.logs.filter LogEntry.isCritical = [failure "NVMe_SSD_10", failure "NVMe_SSD_10"] := by
  have hfacts : ((polledRun [0, 0, 0x20, 0]).foldlM (fun (o : Observed Failures) e => o.next see .standard e)
      (.start .standard init default default 10 3 Process.first.drive.objPath (some 5000))).any
      (fun o => decide (o.seen.falls = 2)) = true := by
    decide +kernel
  obtain ⟨o, ho, hfalls⟩ := (Option.any_eq_true _ _).mp hfacts
  have hrun : Run (Observed.Step see .standard) _ _ o := Run.of_foldlM ho
  refine ⟨o, hrun, ?_⟩
  rw [recorded_of_run hrun, of_decide_eq_true hfalls]
  decide

end Failures
end NvmeManager
