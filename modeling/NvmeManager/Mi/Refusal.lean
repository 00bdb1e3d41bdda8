import NvmeManager.Mi.Commands
import NvmeManager.Worker.Order

/-!
# Refused tasks

A call of the interface moves its callback into the closure for the worker before `post` is entered, and moves it into a
handler of the main loop where `post` throws. A `std::function` that has been moved from is empty.

* `CallState` : a call under way, with the callback that it owns and those that it has moved on;
* `CallState.post`, `CallState.try_post` : the two ways to the worker; `MiRequest.call` : the calls;
* `MiRequest.call_accepted` : while the worker accepts tasks, a call does what `MiRequest.submit` says;
  `MiRequest.call_refused` : what is left of a call whose task is refused;
* `Notified` : what the caller is promised then; `MiRequest.refused_unnotified` : it is never kept.
-/

namespace NvmeManager
open Worker (Logged)

/-- A call of the interface under way. A callback that has been moved from is `none`. -/
structure CallState (κ : Type) where
  /-- The parameter. -/
  cb : Option κ
  /-- The tasks that the worker has accepted, with the callbacks that they own. -/
  worker : List (Closure Unit × Option κ)
  /-- The closures that have been posted to the main loop, with the callbacks that they own. -/
  loop : List (Closure Unit × Option κ)
  /-- The handlers that have been posted to the main loop, to run a callback. -/
  io : List (Option κ × Reply)
  /-- The callbacks that have been run in the call. -/
  called : List (Option κ × Reply)

namespace CallState
variable {κ : Type}

def start (k : κ) : CallState κ := ⟨some k, [], [], [], []⟩

variable (s : CallState κ)

def run (r : Reply) : CallState κ := { s with called := s.called ++ [(s.cb, r)] }

/-- `io.post` of the callback, which is moved into the handler. -/
def ioPost (r : Reply) : CallState κ := { s with cb := none, io := s.io ++ [(s.cb, r)] }

/-- `io.post` of a closure that owns the callback. -/
def loopPost (task : Closure Unit) : CallState κ := { s with cb := none, loop := s.loop ++ [(task, s.cb)] }

/-- `post` of a task that owns the callback, and whether it has thrown; a task that is refused is destroyed. -/
def post (refused : Bool) (task : Closure Unit) : Bool × CallState κ :=
  let func := (task, s.cb)
  let moved := { s with cb := none }
  if refused then (true, moved) else (false, { moved with worker := moved.worker ++ [func] })

/-- `try_post` : the error code in place of the exception. -/
def try_post (refused : Bool) (task : Closure Unit) : ErrorCode × CallState κ :=
  match s.post refused task with
  | (true, s) => (.no_such_device, s)
  | (false, s) => (.noError, s)

/-- A call that catches the exception of `post`. -/
def postOrCatch (refused : Bool) (r : MiRequest) : CallState κ :=
  match s.post refused r.task with
  | (true, s) => s.ioPost ⟨.no_such_device, r.noPayload⟩
  | (false, s) => s

/-- A call that tests the error code of `try_post`. -/
def postOrReport (refused : Bool) (r : MiRequest) : CallState κ :=
  let post_err := s.try_post refused r.task
  if post_err.1.isError then post_err.2.ioPost ⟨post_err.1, r.noPayload⟩ else post_err.2

/-- The callbacks that the main loop runs; a handler with an empty one throws `std::bad_function_call` instead. -/
def runs : List (κ × Reply) := s.io.filterMap fun h => h.1.map fun k => (k, h.2)

end CallState

def Submission.state {κ : Type} (k : κ) : Submission → CallState κ
  | called r => { CallState.start k with called := [(some k, r)] }
  | posted r => { CallState.start k with cb := none, io := [(some k, r)] }
  | worker task => { CallState.start k with cb := none, worker := [(task, some k)] }
  | loop task => { CallState.start k with cb := none, loop := [(task, some k)] }

namespace MiRequest
variable {κ : Type} {r : MiRequest} {nvmeEP : Bool}

/-- The call, on an interface whose endpoint is valid or null, with a worker that refuses the task or accepts it. -/
def call (nvmeEP refused : Bool) (r : MiRequest) (s : CallState κ) : CallState κ :=
  match r with
  | adminSecuritySend .. => s.postOrReport refused r
  | adminSecurityReceive _ _ _ transfer_length =>
    if transfer_length.toNat > NVMeMi.maxNVMeMILength then
      s.run ⟨.invalid_argument, r.noPayload⟩
    else
      s.postOrReport refused r
  | adminFwCommit .. => if !nvmeEP then s.ioPost ⟨.no_such_device, r.noPayload⟩ else s.loopPost r.task
  | _ => if !nvmeEP then s.ioPost ⟨.no_such_device, r.noPayload⟩ else s.postOrCatch refused r

theorem call_accepted (nvmeEP : Bool) (r : MiRequest) (k : κ) :
    r.call nvmeEP false (.start k) = (r.submit nvmeEP).state k := by
  cases r with
  | adminSecuritySend => rfl
  | adminSecurityReceive ctrl proto spec transfer_length =>
      unfold call submit
      dsimp only
      split
      · rfl
      · rfl
  | miPCIePortInformation | miSubsystemHealthStatusPoll | miScanCtrl | adminIdentify | adminSanitize | adminGetLogPage
  | adminXfer | adminFwCommit =>
      cases nvmeEP with
      | true => rfl
      | false => rfl

/-- A call whose task is refused: what it posts to the main loop has been moved from. -/
theorem call_refused (h : r.submit nvmeEP = .worker r.task) (k : κ) : r.call nvmeEP true (.start k) =
    { CallState.start k with cb := none, io := [(none, ⟨.no_such_device, r.noPayload⟩)] } := by
  cases r with
  | adminSecuritySend => rfl
  | adminSecurityReceive ctrl proto spec transfer_length =>
      unfold submit at h
      unfold call
      dsimp only at h ⊢
      split at h
      · cases h
      · next hfits =>
          rw [if_neg hfits]
          rfl
  | adminFwCommit =>
      cases nvmeEP with
      | true => cases h
      | false => cases h
  | miPCIePortInformation | miSubsystemHealthStatusPoll | miScanCtrl | adminIdentify | adminSanitize | adminGetLogPage
  | adminXfer =>
      cases nvmeEP with
      | true => rfl
      | false => cases h

end MiRequest

def Worker.refuses (w : Worker) (i : TaskId) : Bool := w.posts i = .threw

/-- The main loop runs the callback of the caller once, with the error, and the task is not executed. -/
structure Notified {κ : Type} (k : κ) (s : CallState κ) (w : Worker) (i : TaskId) : Prop where
  once : ∃ payload, s.runs = [(k, ⟨.no_such_device, payload⟩)]
  later : s.called = []
  unexecuted : i ∉ w.started

/-- **Refusal.** Wherever the worker refuses the task of a call, the task is not executed, but what the main loop is
given to run is an empty function, so the caller is not told. -/
theorem MiRequest.refused_unnotified {κ : Type} {r : MiRequest} {nvmeEP : Bool} {ms : List Logged.Move} {l : Logged}
    {i : TaskId} (k : κ) (hsubmit : r.submit nvmeEP = .worker r.task) (hrun : Run Logged.Step .init ms l)
    (hrefused : l.worker.refuses i = true) :
    i ∉ l.worker.started ∧
      (r.call nvmeEP (l.worker.refuses i) (.start k)).io = [(none, ⟨.no_such_device, r.noPayload⟩)] ∧
      ¬ Notified k (r.call nvmeEP (l.worker.refuses i) (.start k)) l.worker i := by
  have hordered : l.Ordered :=
    (hrun.invariant Logged.Sound Logged.sound_init fun _ _ _ hs h => Logged.sound_of_step hs h).ordered
  have hthrew : l.worker.posts i = .threw := of_decide_eq_true hrefused
  have hcall := call_refused hsubmit k
  rw [hrefused, hcall]
  refine ⟨fun hstarted => ?_, rfl, ?_⟩
  · have henqueued := hordered.mem_accepted.mp (List.mem_append_left _ hstarted)
    rw [hthrew] at henqueued
    cases henqueued
  · rintro ⟨⟨payload, hruns⟩, -, -⟩
    cases hruns

/-- The destructor stops the worker, and a call comes after it. -/
def stoppedRun : List Actor := [.destroy, .destroy, .post 0, .post 0]

theorem run_stopped : ∃ l, Run Logged.Step .init (stoppedRun.map .step) l ∧ l.worker.refuses 0 = true := by
  obtain ⟨w, hw, hrefused⟩ : ∃ w, Run Worker.Step .init stoppedRun w ∧ w.refuses 0 = true :=
    ⟨_, Run.of_foldlM rfl, rfl⟩
  obtain ⟨locked, hrun⟩ := Logged.run_of_worker hw
  exact ⟨_, hrun, hrefused⟩

/-- The theorem at a poll of the health after the stop. -/
theorem MiRequest.refused_unnotified_health : ∃ l, Run Logged.Step .init (stoppedRun.map .step) l ∧
    ¬ Notified () (miSubsystemHealthStatusPoll.call true (l.worker.refuses 0) (.start ())) l.worker 0 := by
  obtain ⟨l, hrun, hrefused⟩ := run_stopped
  exact ⟨l, hrun, (refused_unnotified () rfl hrun hrefused).2.2⟩

/-- A security send after the stop posts an empty function. -/
theorem MiRequest.send_after_stop_unnotified : ∃ l, Run Logged.Step .init (stoppedRun.map .step) l ∧
    l.worker.refuses 0 = true ∧
    ¬ Notified () ((adminSecuritySend ⟨1, 7⟩ 1 0 [0]).call true (l.worker.refuses 0) (.start ())) l.worker 0 := by
  obtain ⟨l, hrun, hrefused⟩ := run_stopped
  refine ⟨l, hrun, hrefused, ?_⟩
  rw [hrefused]
  rintro ⟨⟨payload, hruns⟩, -, -⟩
  cases hruns

end NvmeManager
