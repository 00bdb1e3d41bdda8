import NvmeManager.System.Watch

/-!
# The requests of an event

* `Process.asks` : the requests that an event makes; `Exchange`, `exchange_of_turn` : with those of the worker and of the
  loop, they are all that happens to the interface of a drive;
* `Process.Adds`, `adds_of_turn` : which requests an event has added to the queues: those that it makes;
* `erase_of_asks` : only an erase that is not refused makes a sanitize.
-/

namespace NvmeManager

/-- The request that a callback makes. -/
def NVMeDevice.Follow.requests : Follow → List Command
  | .request c => [c]
  | .wait | .nothing => []

namespace NVMeMi

def submits (cfg : Config) (mi : NVMeMi) (cs : List Command) : NVMeMi := cs.foldl (fun mi c => mi.submit cfg c) mi

variable {cfg : Config} {mi : NVMeMi}

theorem worker_submits {ep : Endpoint} (hep : mi.nvmeEP = some ep) (cs : List Command) :
    (mi.submits cfg cs).worker = mi.worker ++ cs := by
  induction cs generalizing mi with
  | nil => exact (List.append_nil _).symm
  | cons c cs ih =>
      change ((mi.submit cfg c).submits cfg cs).worker = _
      rw [ih ((nvmeEP_submit c).trans hep), worker_submit hep, List.append_assoc, List.singleton_append]

theorem submits_of_none (hep : mi.nvmeEP = none) (cs : List Command) :
    (mi.submits cfg cs).worker = mi.worker ∧
      (mi.submits cfg cs).io.map Pending.command = mi.io.map Pending.command ++ cs := by
  induction cs generalizing mi with
  | nil => exact ⟨rfl, (List.append_nil _).symm⟩
  | cons c cs ih =>
      obtain ⟨hworker, hio⟩ := ih ((nvmeEP_submit c).trans hep)
      change ((mi.submit cfg c).submits cfg cs).worker = _ ∧ ((mi.submit cfg c).submits cfg cs).io.map _ = _
      rw [hworker, hio]
      unfold submit
      rw [hep]
      simp

end NVMeMi

/-- The worker or the loop takes the oldest of its queue. -/
def Event.Takes : Event → Prop
  | .execute .. | .deliver => True
  | .initializeDrive | .inventory .. | .writeFault .. | .erase .. | .expire | .tick => False

namespace Process
variable (p : Process)

def asks : Event → List Command
  | .initializeDrive => [.scan]
  | .erase passes type =>
    if p.drive.inProgress = false ∧ type ∈ p.drive.props.sanitizeCapability then
      [.sanitize p.drive.ctrl type passes]
    else
      []
  | .tick =>
    if p.drive.presence = false then [.scan]
    else if p.drive.props.operation = .sanitize ∧ p.drive.inProgress = true then [.sanitizeLog p.drive.ctrl]
    else [.health, .smart p.drive.ctrl]
  | .deliver =>
    match p.drive.intf.io with
    | q :: _ => (p.drive.follow q.command q.reply).requests
    | [] => []
  | .inventory .. | .writeFault .. | .expire | .execute .. => []

def runs : Event → List Pending
  | .deliver => p.drive.intf.io.take 1
  | _ => []

/-- What an event leaves of the requests in the queue of the worker. -/
def queued : Event → List Command
  | .execute .. => p.drive.intf.worker.tail
  | _ => p.drive.intf.worker

/-- What an event leaves of the callbacks in the queue of the loop. -/
def posted : Event → List Pending
  | .deliver => p.drive.intf.io.tail
  | _ => p.drive.intf.io

/-- An event adds these requests and no others: behind those that it leaves in the queue of the worker, or, where there is
no endpoint, as callbacks behind those that it leaves in the queue of the loop. -/
def Adds (e : Event) (p' : Process) (cs : List Command) : Prop :=
  match p.drive.intf.nvmeEP with
  | some _ => p'.drive.intf.worker = p.queued e ++ cs
  | none =>
    p'.drive.intf.worker = p.drive.intf.worker ∧
      p'.drive.intf.io.map Pending.command = (p.posted e).map Pending.command ++ cs

/-- What an event does to the interface. -/
inductive Exchange (cfg : Config) (p : Process) : Event → NVMeMi → Prop
  | made {e : Event} : ¬ e.Takes → Exchange cfg p e (p.drive.intf.submits cfg (p.asks e))
  | executed {lib : Libnvme} {errno : Int} {mi : NVMeMi} :
      p.drive.intf.execute cfg lib errno = some mi → Exchange cfg p (.execute lib errno) mi
  | handled {q : Pending} {rest : List Pending} :
      p.drive.intf.io = q :: rest →
        Exchange cfg p .deliver (({ p.drive.intf with io := rest } : NVMeMi).submits cfg (p.asks .deliver))

variable {cfg : Config} {p} {p' : Process} {e : Event}

theorem asks_deliver {q : Pending} {rest : List Pending} (hio : p.drive.intf.io = q :: rest) :
    p.asks .deliver = (p.drive.follow q.command q.reply).requests := by
  unfold asks
  dsimp only
  rw [hio]

theorem runs_deliver {q : Pending} {rest : List Pending} (hio : p.drive.intf.io = q :: rest) : p.runs .deliver = [q] := by
  unfold runs
  dsimp only
  rw [hio]
  rfl

theorem runs_of_not_takes (h : ¬ e.Takes) : p.runs e = [] := by
  cases e with
  | execute | deliver => exact absurd trivial h
  | initializeDrive | inventory | writeFault | erase | expire | tick => rfl

theorem queued_of_not_takes (h : ¬ e.Takes) : p.queued e = p.drive.intf.worker := by
  cases e with
  | execute | deliver => exact absurd trivial h
  | initializeDrive | inventory | writeFault | erase | expire | tick => rfl

theorem posted_of_not_takes (h : ¬ e.Takes) : p.posted e = p.drive.intf.io := by
  cases e with
  | execute | deliver => exact absurd trivial h
  | initializeDrive | inventory | writeFault | erase | expire | tick => rfl

theorem submits_requests (f : NVMeDevice.Follow) (mi : NVMeMi) : mi.submits cfg f.requests = f.intf cfg mi := by
  cases f with
  | request | wait | nothing => rfl

theorem intf_tick {t : SteadyTimer Unit} :
    (({ p.drive with scanTimer := t } : NVMeDevice).tick cfg).intf = p.drive.intf.submits cfg (p.asks .tick) := by
  unfold NVMeDevice.tick asks
  dsimp only
  split
  · rfl
  · split
    · rfl
    · rfl

/-- A step does nothing else to the interface. -/
theorem exchange_of_turn (h : Turn cfg p e p') : Exchange cfg p e p'.drive.intf := by
  cases h with
  | initializeDrive => exact .made id
  | inventory =>
      rw [NVMeDevice.intf_inventory]
      exact .made id
  | writeFault | expire => exact .made id
  | @refused passes type hrefused =>
      have hasks : p.asks (.erase passes type) = [] := by
        have hprogress := NVMeDevice.erase_eq_error_iff.mp hrefused
        simp [asks, hprogress]
      have hmade : Exchange cfg p (.erase passes type) (p.drive.intf.submits cfg (p.asks (.erase passes type))) := .made id
      rwa [hasks] at hmade
  | @erased passes type d herased =>
      have hmade : Exchange cfg p (.erase passes type) (p.drive.intf.submits cfg (p.asks (.erase passes type))) := .made id
      obtain ⟨hprogress, ⟨hcap, rfl⟩ | ⟨hcap, rfl⟩⟩ := NVMeDevice.erase_eq_ok herased
      · have hasks : p.asks (.erase passes type) = [] := by simp [asks, hcap]
        rwa [hasks] at hmade
      · have hasks : p.asks (.erase passes type) = [.sanitize p.drive.ctrl type passes] := by
          simp [asks, hprogress, hcap]
        rwa [hasks] at hmade
  | tick =>
      rw [intf_tick]
      exact .made id
  | execute hmi => exact .executed hmi
  | @deliver q rest d hio hhandle =>
      have hintf : d.intf = (p.drive.follow q.command q.reply).intf cfg { p.drive.intf with io := rest } :=
        (NVMeDevice.handle_follow hhandle).2
      rw [hintf, ← submits_requests, ← asks_deliver hio]
      exact .handled hio
  | @abort q rest hio hhandle =>
      -- a handler that aborts makes no request
      obtain ⟨ctrl, hc, hec, hzero⟩ := NVMeDevice.handle_eq_none hhandle
      have hfollow : p.drive.follow q.command q.reply = .nothing := by
        rw [hc]
        unfold NVMeDevice.follow
        dsimp only
        rw [if_pos (.inr hzero.1)]
      have hhandled : Exchange cfg p .deliver
          (({ p.drive.intf with io := rest } : NVMeMi).submits cfg (p.asks .deliver)) := .handled hio
      rwa [asks_deliver hio, hfollow] at hhandled

theorem adds_of_turn (h : Turn cfg p e p') : p.Adds e p' (p.asks e) := by
  have hexchange := exchange_of_turn h
  unfold Adds
  generalize p'.drive.intf = mi at hexchange
  cases hexchange with
  | made htakes =>
      rw [queued_of_not_takes htakes, posted_of_not_takes htakes]
      cases hep : p.drive.intf.nvmeEP with
      | none => exact NVMeMi.submits_of_none hep _
      | some ep => exact NVMeMi.worker_submits hep _
  | executed hmi =>
      obtain ⟨ep, c, rest, hep, hworker, rfl⟩ := NVMeMi.execute_eq_some hmi
      rw [hep]
      change rest = p.drive.intf.worker.tail ++ []
      rw [hworker, List.append_nil]
      rfl
  | @handled q rest hio =>
      have hposted : p.posted .deliver = rest := congrArg List.tail hio
      have hsame : ({ p.drive.intf with io := rest } : NVMeMi).nvmeEP = p.drive.intf.nvmeEP := rfl
      rw [hposted]
      cases hep : p.drive.intf.nvmeEP with
      | none => exact NVMeMi.submits_of_none (hsame.trans hep) _
      | some ep => exact NVMeMi.worker_submits (hsame.trans hep) _

/-- Only an erase asks for a sanitize, with a method that the drive publishes and while it knows of none. -/
theorem erase_of_asks {c : Command} (hc : c ∈ p.asks e) (hsanitize : c.isSanitize = true) :
    ∃ passes type, e = .erase passes type ∧ c = .sanitize p.drive.ctrl type passes ∧
      p.drive.inProgress = false ∧ type ∈ p.drive.props.sanitizeCapability := by
  cases e with
  | erase passes type =>
      unfold asks at hc
      dsimp only at hc
      split at hc
      · next hok => exact ⟨passes, type, rfl, List.mem_singleton.mp hc, hok⟩
      · cases hc
  | initializeDrive =>
      obtain rfl := List.mem_singleton.mp hc
      cases hsanitize
  | tick =>
      unfold asks at hc
      dsimp only at hc
      split at hc
      · obtain rfl := List.mem_singleton.mp hc
        cases hsanitize
      · split at hc
        · obtain rfl := List.mem_singleton.mp hc
          cases hsanitize
        · rcases List.mem_pair.mp hc with rfl | rfl
          · cases hsanitize
          · cases hsanitize
  | deliver =>
      cases hio : p.drive.intf.io with
      | nil =>
          unfold asks at hc
          dsimp only at hc
          rw [hio] at hc
          cases hc
      | cons q rest =>
          rw [asks_deliver hio] at hc
          cases hfollow : p.drive.follow q.command q.reply with
          | request c' =>
              rw [hfollow] at hc
              obtain rfl := List.mem_singleton.mp hc
              rw [NVMeDevice.isSanitize_follow hfollow] at hsanitize
              cases hsanitize
          | wait | nothing =>
              rw [hfollow] at hc
              cases hc
  | inventory | writeFault | expire | execute => cases hc

end Process

end NvmeManager
