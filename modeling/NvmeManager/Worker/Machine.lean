import NvmeManager.Lib.Run
import Mathlib.Logic.Function.Basic

/-!
# The worker thread

`NVMeMi::Worker` as a system of threads that take atomic steps: the worker thread, any number of calls of `post`, each
with its task, and the destructor.

* `ThreadPc`, `PostPc`, `DestroyPc` : where each of them stands in its code;
* `Worker` : the shared state; `Worker.next` : the step of an actor, `none` while it is blocked or done;
* a condition variable wakes the threads that wait at the notify and no others, so `notify` moves a worker thread out
  of `waiting` and does nothing otherwise;
* `ThreadMove`, `PostMove`, `DestroyMove` : the steps of each actor, one case for each; `threadMove_of_step`,
  `postMove_of_step`, `destroyMove_of_step` : every step is one.
-/

namespace NvmeManager

/-- A call of `post`, and the task it carries. -/
abbrev TaskId := Nat

/-- Where the worker thread stands. -/
inductive ThreadPc
  /-- In `io.run()`, between two handlers. -/
  | run
  /-- In `io.run()`, executing a handler. -/
  | execute (task : TaskId)
  /-- `io.run()` has found the queue empty and has returned. -/
  | restart
  | lock
  /-- Holds `workerMtx`, about to enter `cv.wait`. -/
  | wait
  /-- Blocked in `cv.wait`. -/
  | waiting
  /-- Woken up, about to take `workerMtx` again. -/
  | notified
  | checkStop
  | unlock
  /-- In the second `io.run()`, with `workerMtx` held. -/
  | drain
  | drainExecute (task : TaskId)
  | leave
  | exited
  deriving DecidableEq, Repr

/-- Where a call of `post` stands. -/
inductive PostPc
  | notCalled
  | check
  | lock
  | recheck
  | enqueue
  | notify
  | unlock
  /-- Leaves the block of the lock, to throw. -/
  | unlockThrow
  | returned
  | threw
  deriving DecidableEq, Repr

/-- Where the destructor stands. -/
inductive DestroyPc
  | notCalled
  | setStop
  | lock
  | notify
  | unlock
  | join
  | done
  deriving DecidableEq, Repr

/-- The threads of the system. -/
inductive Actor
  | thread
  | post (task : TaskId)
  | destroy
  deriving DecidableEq, Repr

/-- The state of a `Worker` and of the threads that use it. -/
structure Worker where
  workerStop : Bool
  /-- The holder of `workerMtx`. -/
  workerMtx : Option Actor
  /-- The tasks of `workerIO`, oldest first. -/
  workerIO : List TaskId
  thread : ThreadPc
  posts : TaskId → PostPc
  destroy : DestroyPc
  /-- The tasks executed so far, oldest first. -/
  executed : List TaskId

namespace Worker

def init : Worker where
  workerStop := false
  workerMtx := none
  workerIO := []
  thread := .run
  posts := fun _ => .notCalled
  destroy := .notCalled
  executed := []

variable (w : Worker)

/-- `workerMtx` is taken by an actor, if it is free. -/
def acquire (a : Actor) : Option Worker :=
  if w.workerMtx = none then some { w with workerMtx := some a } else none

def release : Worker := { w with workerMtx := none }

def notify : Worker := if w.thread = .waiting then { w with thread := .notified } else w

def setPost (i : TaskId) (pc : PostPc) : Worker := { w with posts := Function.update w.posts i pc }

/-- A step of the worker thread. -/
def threadStep : Option Worker :=
  match w.thread with
  | .run =>
    match w.workerIO with
    | [] => some { w with thread := .restart }
    | task :: rest => some { w with workerIO := rest, thread := .execute task }
  | .execute task => some { w with thread := .run, executed := w.executed ++ [task] }
  | .restart => some { w with thread := .lock }
  | .lock => (w.acquire .thread).map fun w => { w with thread := .wait }
  | .wait => some { w.release with thread := .waiting }
  | .waiting => none
  | .notified => (w.acquire .thread).map fun w => { w with thread := .checkStop }
  | .checkStop => some { w with thread := if w.workerStop then .drain else .unlock }
  | .unlock => some { w.release with thread := .run }
  | .drain =>
    match w.workerIO with
    | [] => some { w with thread := .leave }
    | task :: rest => some { w with workerIO := rest, thread := .drainExecute task }
  | .drainExecute task => some { w with thread := .drain, executed := w.executed ++ [task] }
  | .leave => some { w.release with thread := .exited }
  | .exited => none

/-- A step of the call of `post` that carries task `i`. -/
def postStep (i : TaskId) : Option Worker :=
  match w.posts i with
  | .notCalled => some (w.setPost i .check)
  | .check => some (w.setPost i (if w.workerStop then .threw else .lock))
  | .lock => (w.acquire (.post i)).map fun w => w.setPost i .recheck
  | .recheck => some (w.setPost i (if w.workerStop then .unlockThrow else .enqueue))
  | .enqueue => some ({ w with workerIO := w.workerIO ++ [i] }.setPost i .notify)
  | .notify => some (w.notify.setPost i .unlock)
  | .unlock => some (w.release.setPost i .returned)
  | .unlockThrow => some (w.release.setPost i .threw)
  | .returned | .threw => none

/-- A step of the destructor. -/
def destroyStep : Option Worker :=
  match w.destroy with
  | .notCalled => some { w with destroy := .setStop }
  | .setStop => some { w with workerStop := true, destroy := .lock }
  | .lock => (w.acquire .destroy).map fun w => { w with destroy := .notify }
  | .notify => some { w.notify with destroy := .unlock }
  | .unlock => some { w.release with destroy := .join }
  | .join => if w.thread = .exited then some { w with destroy := .done } else none
  | .done => none

def next : Actor → Option Worker
  | .thread => w.threadStep
  | .post i => w.postStep i
  | .destroy => w.destroyStep

def Step (w : Worker) (a : Actor) (w' : Worker) : Prop := w.next a = some w'

/-! ## Inversion -/

variable {w w' : Worker} {a : Actor}

theorem acquire_eq_some (h : w.acquire a = some w') : w.workerMtx = none ∧ w' = { w with workerMtx := some a } := by
  unfold acquire at h
  split at h
  · next hfree => exact ⟨hfree, (Option.some.inj h).symm⟩
  · cases h

/-- The steps of the worker thread, one case for each place where it stands. -/
inductive ThreadMove (w : Worker) : Worker → Prop
  | idle : w.thread = .run → w.workerIO = [] → ThreadMove w { w with thread := .restart }
  | take {task : TaskId} {rest : List TaskId} :
      w.thread = .run → w.workerIO = task :: rest → ThreadMove w { w with workerIO := rest, thread := .execute task }
  | execute {task : TaskId} :
      w.thread = .execute task → ThreadMove w { w with thread := .run, executed := w.executed ++ [task] }
  | restart : w.thread = .restart → ThreadMove w { w with thread := .lock }
  | lock : w.thread = .lock → w.workerMtx = none → ThreadMove w { w with workerMtx := some .thread, thread := .wait }
  | wait : w.thread = .wait → ThreadMove w { w with workerMtx := none, thread := .waiting }
  | notified :
      w.thread = .notified → w.workerMtx = none → ThreadMove w { w with workerMtx := some .thread, thread := .checkStop }
  | stop : w.thread = .checkStop → w.workerStop = true → ThreadMove w { w with thread := .drain }
  | goOn : w.thread = .checkStop → w.workerStop = false → ThreadMove w { w with thread := .unlock }
  | unlock : w.thread = .unlock → ThreadMove w { w with workerMtx := none, thread := .run }
  | drained : w.thread = .drain → w.workerIO = [] → ThreadMove w { w with thread := .leave }
  | drain {task : TaskId} {rest : List TaskId} :
      w.thread = .drain → w.workerIO = task :: rest →
        ThreadMove w { w with workerIO := rest, thread := .drainExecute task }
  | drainExecute {task : TaskId} :
      w.thread = .drainExecute task → ThreadMove w { w with thread := .drain, executed := w.executed ++ [task] }
  | leave : w.thread = .leave → ThreadMove w { w with workerMtx := none, thread := .exited }

theorem threadMove_of_step (h : w.Step .thread w') : ThreadMove w w' := by
  change w.threadStep = some w' at h
  unfold threadStep at h
  cases hpc : w.thread <;> simp only [hpc] at h
  case run =>
    split at h
    · next hqueue =>
        obtain rfl := Option.some.inj h
        exact .idle hpc hqueue
    · next hqueue =>
        obtain rfl := Option.some.inj h
        exact .take hpc hqueue
  case drain =>
    split at h
    · next hqueue =>
        obtain rfl := Option.some.inj h
        exact .drained hpc hqueue
    · next hqueue =>
        obtain rfl := Option.some.inj h
        exact .drain hpc hqueue
  case lock =>
    obtain ⟨u, hu, rfl⟩ := Option.map_eq_some_iff.mp h
    obtain ⟨hfree, rfl⟩ := acquire_eq_some hu
    exact .lock hpc hfree
  case notified =>
    obtain ⟨u, hu, rfl⟩ := Option.map_eq_some_iff.mp h
    obtain ⟨hfree, rfl⟩ := acquire_eq_some hu
    exact .notified hpc hfree
  case checkStop =>
    by_cases hstop : w.workerStop = true
    · rw [if_pos hstop] at h
      obtain rfl := Option.some.inj h
      exact .stop hpc hstop
    · rw [if_neg hstop] at h
      obtain rfl := Option.some.inj h
      exact .goOn hpc (Bool.eq_false_iff.mpr hstop)
  case waiting | exited => cases h
  all_goals obtain rfl := Option.some.inj h
  case execute => exact .execute hpc
  case restart => exact .restart hpc
  case wait => exact .wait hpc
  case unlock => exact .unlock hpc
  case drainExecute => exact .drainExecute hpc
  case leave => exact .leave hpc

/-- The steps of a call of `post`. -/
inductive PostMove (w : Worker) (i : TaskId) : Worker → Prop
  | call : w.posts i = .notCalled → PostMove w i (w.setPost i .check)
  | refuse : w.posts i = .check → w.workerStop = true → PostMove w i (w.setPost i .threw)
  | check : w.posts i = .check → w.workerStop = false → PostMove w i (w.setPost i .lock)
  | lock : w.posts i = .lock → w.workerMtx = none → PostMove w i ({ w with workerMtx := some (.post i) }.setPost i .recheck)
  | refuseLocked : w.posts i = .recheck → w.workerStop = true → PostMove w i (w.setPost i .unlockThrow)
  | recheck : w.posts i = .recheck → w.workerStop = false → PostMove w i (w.setPost i .enqueue)
  | enqueue : w.posts i = .enqueue → PostMove w i ({ w with workerIO := w.workerIO ++ [i] }.setPost i .notify)
  | notify : w.posts i = .notify → PostMove w i (w.notify.setPost i .unlock)
  | unlock : w.posts i = .unlock → PostMove w i (w.release.setPost i .returned)
  | unlockThrow : w.posts i = .unlockThrow → PostMove w i (w.release.setPost i .threw)

theorem postMove_of_step {i : TaskId} (h : w.Step (.post i) w') : PostMove w i w' := by
  change w.postStep i = some w' at h
  unfold postStep at h
  cases hpc : w.posts i <;> simp only [hpc] at h
  case check =>
    by_cases hstop : w.workerStop = true
    · rw [if_pos hstop] at h
      obtain rfl := Option.some.inj h
      exact .refuse hpc hstop
    · rw [if_neg hstop] at h
      obtain rfl := Option.some.inj h
      exact .check hpc (Bool.eq_false_iff.mpr hstop)
  case recheck =>
    by_cases hstop : w.workerStop = true
    · rw [if_pos hstop] at h
      obtain rfl := Option.some.inj h
      exact .refuseLocked hpc hstop
    · rw [if_neg hstop] at h
      obtain rfl := Option.some.inj h
      exact .recheck hpc (Bool.eq_false_iff.mpr hstop)
  case lock =>
    obtain ⟨u, hu, rfl⟩ := Option.map_eq_some_iff.mp h
    obtain ⟨hfree, rfl⟩ := acquire_eq_some hu
    exact .lock hpc hfree
  case returned | threw => cases h
  all_goals obtain rfl := Option.some.inj h
  case notCalled => exact .call hpc
  case enqueue => exact .enqueue hpc
  case notify => exact .notify hpc
  case unlock => exact .unlock hpc
  case unlockThrow => exact .unlockThrow hpc

/-- The steps of the destructor. -/
inductive DestroyMove (w : Worker) : Worker → Prop
  | call : w.destroy = .notCalled → DestroyMove w { w with destroy := .setStop }
  | setStop : w.destroy = .setStop → DestroyMove w { w with workerStop := true, destroy := .lock }
  | lock : w.destroy = .lock → w.workerMtx = none → DestroyMove w { w with workerMtx := some .destroy, destroy := .notify }
  | notify : w.destroy = .notify → DestroyMove w { w.notify with destroy := .unlock }
  | unlock : w.destroy = .unlock → DestroyMove w { w with workerMtx := none, destroy := .join }
  | join : w.destroy = .join → w.thread = .exited → DestroyMove w { w with destroy := .done }

theorem destroyMove_of_step (h : w.Step .destroy w') : DestroyMove w w' := by
  change w.destroyStep = some w' at h
  unfold destroyStep at h
  cases hpc : w.destroy <;> simp only [hpc] at h
  case lock =>
    obtain ⟨u, hu, rfl⟩ := Option.map_eq_some_iff.mp h
    obtain ⟨hfree, rfl⟩ := acquire_eq_some hu
    exact .lock hpc hfree
  case join =>
    split at h
    · next hexited =>
        obtain rfl := Option.some.inj h
        exact .join hpc hexited
    · cases h
  case done => cases h
  all_goals obtain rfl := Option.some.inj h
  case notCalled => exact .call hpc
  case setStop => exact .setStop hpc
  case notify => exact .notify hpc
  case unlock => exact .unlock hpc

end Worker
end NvmeManager
