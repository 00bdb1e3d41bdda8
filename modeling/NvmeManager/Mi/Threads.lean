import NvmeManager.Lib.Run
import NvmeManager.Mi.Commands
import Mathlib.Logic.Function.Basic

/-!
# The two threads of an endpoint

The main loop and the worker thread on one endpoint, interleaved operation by operation. A task of the worker holds
`mctpMtx`, as `NVMeMi::post` has it; while the worker executes the tasks of another endpoint it is idle here.

* `Doing` : what a thread is doing: it takes `mctpMtx`, stands between two operations of a closure, or is inside a
  libnvme command; `Doing.changed` : the closure has set the timeout of the endpoint and has not restored it;
* `Threads` : the state; `Threads.next` : what an event does;
* `Threads.Exclusive` : no thread is inside a command while another is, or while another has changed the timeout.
-/

namespace NvmeManager

/-- The threads that execute closures. -/
inductive Side
  | worker
  | loop
  deriving DecidableEq, Repr

def Op.setsTimeout : Op → Bool
  | setTimeout _ => true
  | nvme _ | forEachCtrl | errno | setErrno _ | getTimeout | ioPost _ => false

/-- What waits in the queue of a thread. -/
inductive Handler
  /-- The callback of a request: it makes no command. -/
  | callback (r : Reply)
  | task (c : Closure Unit)

/-- What a thread is doing. -/
inductive Doing
  | idle
  /-- About to take `mctpMtx`. -/
  | lock (c : Closure Unit)
  /-- About to perform the first operation of what is left of a closure. -/
  | between (rest : Closure Unit) (changed : Bool)
  /-- Inside a libnvme command. -/
  | calling (c : NvmeCall) (k : Answer → Closure Unit) (changed : Bool)

namespace Doing

def isCalling : Doing → Bool
  | calling .. => true
  | idle | lock _ | between .. => false

/-- The closure has set the timeout and has not restored it. -/
def changed : Doing → Bool
  | between _ changed | calling _ _ changed => changed
  | idle | lock _ => false

end Doing

/-- The queues that the submission of a request adds to; a callback that it runs itself makes no command. -/
def Submission.queued : Submission → Side → List Handler
  | posted r, .loop => [.callback r]
  | worker c, .worker => [.task c]
  | loop c, .loop => [.task c]
  | _, _ => []

/-- The endpoint and the two threads. -/
structure Threads where
  ep : Endpoint
  mctpMtx : Bool
  errno : Side → Int
  /-- `workerIO` and `io`, oldest first. -/
  queue : Side → List Handler
  doing : Side → Doing

namespace Threads

inductive Event
  /-- A handler of the main loop makes a request. -/
  | request (r : MiRequest)
  /-- A thread takes the oldest handler of its queue. -/
  | take (s : Side)
  /-- A thread goes on to the next command or the next operation of its closure, or to its end. -/
  | advance (s : Side)
  /-- The command that a thread is inside returns. -/
  | answer (s : Side) (a : Answer)

def start (ep : Endpoint) : Threads := ⟨ep, false, fun _ => 0, fun _ => [], fun _ => .idle⟩

variable (t : Threads) (s : Side)

def setQueue (q : List Handler) : Threads := { t with queue := Function.update t.queue s q }

def setDoing (d : Doing) : Threads := { t with doing := Function.update t.doing s d }

/-- What a thread has found and done through an operation is stored; the callbacks that it posts go to the loop. -/
def store (th : Thread) : Threads :=
  { t with
    ep := th.ep
    errno := Function.update t.errno s th.errno
    queue := Function.update t.queue .loop (t.queue .loop ++ th.posted.map .callback) }

def thread : Thread := .start (t.errno s) t.ep

def perform (o : Op) : o.Ans × Threads :=
  let r := serve (.ok {}) o (t.thread s)
  (r.1, t.store s r.2)

/-- What a thread does with a closure first: one that was posted through `NVMeMi::post` takes `mctpMtx`. -/
def first (c : Closure Unit) : Doing :=
  match s with
  | .worker => .lock c
  | .loop => .between c false

/-- A closure ends; that of the worker gives up `mctpMtx`. -/
def finish : Threads :=
  { t with
    mctpMtx :=
      match s with
      | .worker => false
      | .loop => t.mctpMtx }.setDoing s .idle

/-- What an event does; `none` if it cannot happen. `nvmeEP` tells whether the endpoint is valid. -/
def next (nvmeEP : Bool) (t : Threads) : Event → Option Threads
  | .request r =>
    match t.doing .loop with
    | .idle => some { t with queue := fun s => t.queue s ++ (r.submit nvmeEP).queued s }
    | _ => none
  | .take s =>
    match t.doing s, t.queue s with
    | .idle, .callback _ :: rest => some (t.setQueue s rest)
    | .idle, .task c :: rest => some ((t.setQueue s rest).setDoing s (first s c))
    | _, _ => none
  | .advance s =>
    match t.doing s with
    | .lock c => if t.mctpMtx then none else some ({ t with mctpMtx := true }.setDoing s (.between c false))
    | .between (.ret _) _ => some (t.finish s)
    | .between (.op (.nvme c) k) changed => some (t.setDoing s (.calling c k changed))
    | .between (.op o k) changed =>
      some ((t.perform s o).2.setDoing s (.between (k (t.perform s o).1) (changed ^^ o.setsTimeout)))
    | .idle | .calling .. => none
  | .answer s a =>
    match t.doing s with
    | .calling c k changed => some ((t.store s ((t.thread s).call c a)).setDoing s (.between (k a) changed))
    | _ => none

def Step (nvmeEP : Bool) (t : Threads) (e : Event) (t' : Threads) : Prop := t.next nvmeEP e = some t'

/-- No command is executing beside another, or while the timeout is that of another request. -/
def Exclusive (t : Threads) : Prop :=
  ∀ s s', s ≠ s' → (t.doing s).isCalling = true → (t.doing s').isCalling = false ∧ (t.doing s').changed = false

/-! ## What the updates leave alone -/

section
variable {t : Threads} {s s' : Side} {d : Doing} {q : List Handler} {th : Thread}

@[simp] theorem doing_setDoing : (t.setDoing s d).doing s = d := Function.update_self ..

theorem doing_setDoing_of_ne (h : s' ≠ s) : (t.setDoing s d).doing s' = t.doing s' := Function.update_of_ne h ..

@[simp] theorem queue_setDoing : (t.setDoing s d).queue = t.queue := rfl

@[simp] theorem mctpMtx_setDoing : (t.setDoing s d).mctpMtx = t.mctpMtx := rfl

@[simp] theorem queue_setQueue : (t.setQueue s q).queue s = q := Function.update_self ..

theorem queue_setQueue_of_ne (h : s' ≠ s) : (t.setQueue s q).queue s' = t.queue s' := Function.update_of_ne h ..

@[simp] theorem mctpMtx_setQueue : (t.setQueue s q).mctpMtx = t.mctpMtx := rfl

/-- Only callbacks are added to a queue. -/
theorem queue_store (t : Threads) (s : Side) (th : Thread) (s' : Side) :
    ∃ rs : List Reply, (t.store s th).queue s' = t.queue s' ++ rs.map .callback := by
  cases s' with
  | worker => exact ⟨[], (List.append_nil _).symm⟩
  | loop =>
      refine ⟨th.posted, ?_⟩
      simp [store]

end

/-! ## Inversion -/

variable {nvmeEP : Bool} {t t' : Threads} {e : Event}

/-- What each event does. -/
inductive Move (nvmeEP : Bool) (t : Threads) : Event → Threads → Prop
  | request {r : MiRequest} :
      t.doing .loop = .idle → Move nvmeEP t (.request r) { t with queue := fun s => t.queue s ++ (r.submit nvmeEP).queued s }
  | callback {s : Side} {r : Reply} {rest : List Handler} :
      t.doing s = .idle → t.queue s = .callback r :: rest → Move nvmeEP t (.take s) (t.setQueue s rest)
  | task {s : Side} {c : Closure Unit} {rest : List Handler} :
      t.doing s = .idle → t.queue s = .task c :: rest →
        Move nvmeEP t (.take s) ((t.setQueue s rest).setDoing s (first s c))
  | lock {s : Side} {c : Closure Unit} :
      t.doing s = .lock c → t.mctpMtx = false →
        Move nvmeEP t (.advance s) ({ t with mctpMtx := true }.setDoing s (.between c false))
  | finish {s : Side} {changed : Bool} :
      t.doing s = .between (.ret ()) changed → Move nvmeEP t (.advance s) (t.finish s)
  | call {s : Side} {c : NvmeCall} {k : Answer → Closure Unit} {changed : Bool} :
      t.doing s = .between (.op (.nvme c) k) changed → Move nvmeEP t (.advance s) (t.setDoing s (.calling c k changed))
  | perform {s : Side} {o : Op} {k : o.Ans → Closure Unit} {changed : Bool} :
      (∀ c, o ≠ .nvme c) → t.doing s = .between (.op o k) changed →
        Move nvmeEP t (.advance s)
          ((t.perform s o).2.setDoing s (.between (k (t.perform s o).1) (changed ^^ o.setsTimeout)))
  | answer {s : Side} {a : Answer} {c : NvmeCall} {k : Answer → Closure Unit} {changed : Bool} :
      t.doing s = .calling c k changed →
        Move nvmeEP t (.answer s a) ((t.store s ((t.thread s).call c a)).setDoing s (.between (k a) changed))

theorem next_perform {s : Side} {o : Op} {k : o.Ans → Closure Unit} {changed : Bool} (ho : ∀ c, o ≠ .nvme c)
    (hdoing : t.doing s = .between (.op o k) changed) :
    t.next nvmeEP (.advance s) =
      some ((t.perform s o).2.setDoing s (.between (k (t.perform s o).1) (changed ^^ o.setsTimeout))) := by
  cases o with
  | nvme c => exact absurd rfl (ho c)
  | forEachCtrl | errno | setErrno | getTimeout | setTimeout | ioPost => simp only [next, hdoing]

theorem next_call {s : Side} {c : NvmeCall} {k : Answer → Closure Unit} {changed : Bool}
    (hdoing : t.doing s = .between (.op (.nvme c) k) changed) :
    t.next nvmeEP (.advance s) = some (t.setDoing s (.calling c k changed)) := by
  simp only [next, hdoing]

theorem next_answer {s : Side} {c : NvmeCall} {k : Answer → Closure Unit} {changed : Bool}
    (hdoing : t.doing s = .calling c k changed) (a : Answer) :
    t.next nvmeEP (.answer s a) = some ((t.store s ((t.thread s).call c a)).setDoing s (.between (k a) changed)) := by
  simp only [next, hdoing]

theorem move_of_step (h : t.Step nvmeEP e t') : Move nvmeEP t e t' := by
  unfold Step at h
  cases e with
  | request r =>
      cases hdoing : t.doing .loop with
      | idle =>
          simp only [next, hdoing] at h
          obtain rfl := Option.some.inj h
          exact .request hdoing
      | lock | between | calling => simp [next, hdoing] at h
  | take s =>
      cases hdoing : t.doing s with
      | idle =>
          cases hqueue : t.queue s with
          | nil => simp [next, hdoing, hqueue] at h
          | cons handler rest =>
              cases handler with
              | callback r =>
                  simp only [next, hdoing, hqueue] at h
                  obtain rfl := Option.some.inj h
                  exact .callback hdoing hqueue
              | task c =>
                  simp only [next, hdoing, hqueue] at h
                  obtain rfl := Option.some.inj h
                  exact .task hdoing hqueue
      | lock | between | calling => simp [next, hdoing] at h
  | advance s =>
      cases hdoing : t.doing s with
      | idle | calling => simp [next, hdoing] at h
      | lock c =>
          simp only [next, hdoing] at h
          split at h
          · cases h
          · next hmtx =>
              obtain rfl := Option.some.inj h
              exact .lock hdoing (Bool.eq_false_iff.mpr hmtx)
      | between rest changed =>
          cases rest with
          | ret u =>
              simp only [next, hdoing] at h
              obtain rfl := Option.some.inj h
              exact .finish hdoing
          | op o k =>
              by_cases ho : ∀ c, o ≠ .nvme c
              · rw [next_perform ho hdoing] at h
                obtain rfl := Option.some.inj h
                exact .perform ho hdoing
              · obtain ⟨c, ho⟩ := not_forall.mp ho
                obtain rfl := not_not.mp ho
                rw [next_call hdoing] at h
                obtain rfl := Option.some.inj h
                exact .call hdoing
  | answer s a =>
      cases hdoing : t.doing s with
      | idle | lock | between => simp [next, hdoing] at h
      | calling c k changed =>
          rw [next_answer hdoing] at h
          obtain rfl := Option.some.inj h
          exact .answer hdoing

end Threads
end NvmeManager
