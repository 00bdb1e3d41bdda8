import NvmeManager.Lib.Tagged
import NvmeManager.System.Process

/-!
# A drive behind the requests of others

The functions of a drive append to the queue of the worker and to that of the loop, and look at neither.

* `NVMeMi.behind`, `NVMeDevice.behind` : the interface and the drive, with older requests and callbacks before their own;
* `handle_behind`, `tick_behind`, `erase_behind`, `inventory_behind` : a function of the drive does the same behind them;
* `NVMeDevice.drained` : its requests and callbacks have been moved to the queues that it shares; `behind_drained` : they are
  still behind what was there before;
* `Process.next_behind` : an event that takes nothing from a queue does the same behind older requests and callbacks;
  `next_execute_behind`, `next_deliver_behind` : the events that do.
-/

namespace NvmeManager

namespace NVMeMi
variable {cfg : Config} {mi : NVMeMi} {worker : List Command} {io : List Pending}

def behind (worker : List Command) (io : List Pending) (mi : NVMeMi) : NVMeMi :=
  { mi with worker := worker ++ mi.worker, io := io ++ mi.io }

theorem submit_behind (c : Command) : (mi.behind worker io).submit cfg c = (mi.submit cfg c).behind worker io := by
  obtain ⟨nvmeEP, own, posted, made⟩ := mi
  cases nvmeEP with
  | none => simp [submit, behind]
  | some ep => simp [submit, behind]

theorem execute_behind {lib : Libnvme} {errno : Int} {c : Command} {mi' : NVMeMi} (hworker : mi.worker = [])
    (h : ({ mi with worker := [c] } : NVMeMi).execute cfg lib errno = some mi') :
    (mi.behind (c :: worker) io).execute cfg lib errno = some (mi'.behind worker io) := by
  obtain ⟨nvmeEP, own, posted, made⟩ := mi
  obtain rfl : own = [] := hworker
  cases nvmeEP with
  | none => cases h
  | some ep =>
      obtain rfl := Option.some.inj h
      simp [execute, behind]

end NVMeMi

namespace NVMeDevice
variable {cfg : Config} {d : NVMeDevice} {worker : List Command} {io : List Pending}

def behind (worker : List Command) (io : List Pending) (d : NVMeDevice) : NVMeDevice :=
  { d with intf := d.intf.behind worker io }

theorem call_behind (c : Command) : (d.behind worker io).call cfg c = (d.call cfg c).behind worker io := by
  unfold call behind
  rw [NVMeMi.submit_behind]

theorem initializeDrive_behind : (d.behind worker io).initializeDrive cfg = (d.initializeDrive cfg).behind worker io :=
  call_behind (d := { d with presence := false, props := { d.props with type := .ssd, protocol := .nvme } }) .scan

theorem inventory_behind (form driveAssoc : String) :
    (d.behind worker io).inventory form driveAssoc = (d.inventory form driveAssoc).behind worker io := by
  unfold inventory behind
  by_cases h : driveAssoc = ""
  · rw [if_neg (not_not_intro h), if_neg (not_not_intro h)]
  · rw [if_pos h, if_pos h]

theorem scanned_behind (r : Reply) : (d.behind worker io).scanned cfg r = (d.scanned cfg r).behind worker io := by
  unfold scanned
  cases r.ec.isError with
  | true => rfl
  | false =>
      cases r.payload.ctrlList.getLast? with
      | none => rfl
      | some ctrl =>
          exact call_behind (d := { d with presence := true, props := { d.props with present := true }, ctrl }) _

theorem identified_behind (r : Reply) :
    (d.behind worker io).identified cfg r = (d.identified cfg r).behind worker io := by
  unfold identified
  by_cases herr : r.ec.isError = true
  · rw [if_pos herr, if_pos herr]
    by_cases hretry : d.retry < maxIdentifyCmdRetry
    · rw [if_pos hretry, if_pos (show (d.behind worker io).retry < maxIdentifyCmdRetry from hretry)]
      exact call_behind (d := { d with retry := d.retry + 1 }) _
    · rw [if_neg hretry, if_neg (show ¬ (d.behind worker io).retry < maxIdentifyCmdRetry from hretry)]
      exact call_behind (d := { d with retry := 0 }) _
  · rw [if_neg herr, if_neg herr]
    exact call_behind (d := { d with toDriveView := d.identifyUpdate r.payload.bytes }) _

theorem linkRead_behind (r : Reply) : (d.behind worker io).linkRead r = (d.linkRead r).behind worker io := by
  unfold linkRead
  split
  · rfl
  · rfl

theorem healthPolled_behind (r : Reply) :
    (d.behind worker io).healthPolled cfg r = (d.healthPolled cfg r).behind worker io := by
  unfold healthPolled
  split
  · rfl
  · rfl

theorem smartRead_behind (r : Reply) : (d.behind worker io).smartRead cfg r = (d.smartRead cfg r).behind worker io := by
  unfold smartRead
  split
  · rfl
  · rfl

theorem sanitizeLogRead_behind (r : Reply) :
    (d.behind worker io).sanitizeLogRead cfg r = (d.sanitizeLogRead cfg r).map (behind worker io) := by
  unfold sanitizeLogRead
  dsimp only
  split
  · rfl
  · split
    · rfl
    · rw [Option.map_map]
      rfl

theorem sanitized_behind (type : EraseMethod) (r : Reply) :
    (d.behind worker io).sanitized type r = (d.sanitized type r).behind worker io := by
  unfold sanitized
  split
  · rfl
  · rfl

theorem handle_behind (c : Command) (r : Reply) :
    (d.behind worker io).handle cfg c r = (d.handle cfg c r).map (behind worker io) := by
  cases c with
  | scan => exact congrArg some (scanned_behind r)
  | identify ctrl => exact congrArg some (identified_behind r)
  | portInformation => exact congrArg some (linkRead_behind r)
  | health => exact congrArg some (healthPolled_behind r)
  | smart ctrl => exact congrArg some (smartRead_behind r)
  | sanitizeLog ctrl => exact sanitizeLogRead_behind r
  | sanitize ctrl type passes => exact congrArg some (sanitized_behind type r)

theorem tick_behind : (d.behind worker io).tick cfg = (d.tick cfg).behind worker io := by
  unfold tick
  by_cases hpresence : d.presence = false
  · rw [if_pos hpresence, if_pos (show (d.behind worker io).presence = false from hpresence)]
    exact initializeDrive_behind
  · rw [if_neg hpresence, if_neg (show ¬ (d.behind worker io).presence = false from hpresence)]
    by_cases hsanitize : d.props.operation = .sanitize ∧ d.inProgress = true
    · rw [if_pos hsanitize, if_pos (show (d.behind worker io).props.operation = .sanitize ∧
        (d.behind worker io).inProgress = true from hsanitize)]
      exact congrArg pollDrive (call_behind (.sanitizeLog d.ctrl))
    · rw [if_neg hsanitize, if_neg (show ¬ ((d.behind worker io).props.operation = .sanitize ∧
        (d.behind worker io).inProgress = true) from hsanitize), call_behind, call_behind]
      rfl

theorem erase_behind (passes : UInt16) (type : EraseMethod) :
    (d.behind worker io).erase cfg passes type = (d.erase cfg passes type).map (behind worker io) := by
  unfold erase
  by_cases hprogress : d.inProgress = true
  · rw [if_pos hprogress, if_pos (show (d.behind worker io).inProgress = true from hprogress)]
    rfl
  · rw [if_neg hprogress, if_neg (show ¬ (d.behind worker io).inProgress = true from hprogress)]
    by_cases hcap : type ∈ d.props.sanitizeCapability
    · rw [if_neg (not_not_intro hcap), if_neg (show ¬ type ∉ (d.behind worker io).props.sanitizeCapability from
        not_not_intro hcap)]
      exact congrArg Except.ok (call_behind (.sanitize d.ctrl type passes))
    · rw [if_pos hcap, if_pos (show type ∉ (d.behind worker io).props.sanitizeCapability from hcap)]
      rfl

/-- The requests and the callbacks of the drive have been moved elsewhere. -/
def drained (d : NVMeDevice) : NVMeDevice := { d with intf := { d.intf with worker := [], io := [] } }

theorem behind_drained (d : NVMeDevice) (worker : List Command) (io : List Pending) :
    d.drained.behind (worker ++ d.intf.worker) (io ++ d.intf.io) = d.behind worker io := by
  simp [drained, behind, NVMeMi.behind]

end NVMeDevice

/-! ## Events -/

namespace Process
variable {cfg : Config} {d : NVMeDevice} {worker : List Command} {io : List Pending} {p : Process}

def Local : Event → Prop
  | .execute .. | .deliver => False
  | .initializeDrive | .inventory .. | .writeFault .. | .erase .. | .expire | .tick => True

instance (e : Event) : Decidable (Local e) :=
  match e with
  | .execute .. | .deliver => inferInstanceAs (Decidable False)
  | .initializeDrive | .inventory .. | .writeFault .. | .erase .. | .expire | .tick => inferInstanceAs (Decidable True)

/-- An event that takes nothing from a queue does the same behind older requests and callbacks. -/
theorem next_behind {e : Event} (he : Local e) (h : next cfg ⟨d, false⟩ e = some p) :
    next cfg ⟨d.behind worker io, false⟩ e = some ⟨p.drive.behind worker io, false⟩ := by
  obtain ⟨-, hturn⟩ := turn_of_step h
  cases hturn with
  | initializeDrive => exact congrArg (fun d => some (Process.mk d false)) NVMeDevice.initializeDrive_behind
  | inventory => exact congrArg (fun d => some (Process.mk d false)) (NVMeDevice.inventory_behind _ _)
  | writeFault => rfl
  | @refused passes type herase =>
      have hbehind : (d.behind worker io).erase cfg passes type = .error .NotAllowed := by
        rw [NVMeDevice.erase_behind, herase]
        rfl
      simp [next, hbehind]
  | @erased passes type d' herase =>
      have hbehind : (d.behind worker io).erase cfg passes type = .ok (d'.behind worker io) := by
        rw [NVMeDevice.erase_behind, herase]
        rfl
      simp [next, hbehind]
  | expire ht =>
      have hbehind : (d.behind worker io).scanTimer.expire = some _ := ht
      simp only [next, hbehind]
      rfl
  | @tick t ht =>
      have hbehind : (d.behind worker io).scanTimer.take? = some _ := ht
      simp only [next, hbehind]
      exact congrArg (fun d => some (Process.mk d false)) (NVMeDevice.tick_behind (d := { d with scanTimer := t }))
  | execute | deliver | abort => exact he.elim

theorem next_execute_behind {lib : Libnvme} {errno : Int} {c : Command} {mi : NVMeMi} (hworker : d.intf.worker = [])
    (h : ({ d.intf with worker := [c] } : NVMeMi).execute cfg lib errno = some mi) :
    next cfg ⟨d.behind (c :: worker) io, false⟩ (.execute lib errno) =
      some ⟨{ d with intf := mi }.behind worker io, false⟩ := by
  have hbehind : (d.behind (c :: worker) io).intf.execute cfg lib errno = some (mi.behind worker io) :=
    NVMeMi.execute_behind hworker h
  simp only [next, hbehind]
  rfl

theorem next_deliver_behind {q : Pending} (hio : d.intf.io = []) :
    next cfg ⟨d.behind worker (q :: io), false⟩ .deliver =
      (d.handle cfg q.command q.reply).elim (some ⟨d.behind worker io, true⟩) fun d =>
        some ⟨d.behind worker io, false⟩ := by
  have hhead : (⟨d.behind worker (q :: io), false⟩ : Process).drive.intf.io = q :: io := by
    simp [NVMeDevice.behind, NVMeMi.behind, hio]
  have hpopped : (⟨d.behind worker (q :: io), false⟩ : Process).popped io = d.behind worker io := by
    simp [popped, NVMeDevice.behind, NVMeMi.behind, hio]
  rw [next_deliver rfl hhead, hpopped, NVMeDevice.handle_behind]
  cases d.handle cfg q.command q.reply with
  | none => rfl
  | some d' => rfl

end Process
end NvmeManager
