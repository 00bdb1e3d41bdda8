import NvmeManager.Worker.Order
import NvmeManager.Worker.Wakeup

/-!
# Stopping the worker thread

The destructor notifies the thread once, and the thread tests `workerStop` only after a wait.

* `Worker.Deadlocked` : the destructor joins a thread that is blocked in `cv.wait`, and nobody is about to notify it;
* `Worker.Misses` : the notify of the destructor while the thread is on its way to the wait;
* `Worker.Parting` : the invariant of the runs without such a step: a thread that is joined is on its way to its end;
* `never_deadlocked` : such a run does not deadlock; `deadlocked_of_misses` : any such step can be continued to a
  deadlock.
-/

namespace NvmeManager

def DestroyPc.stopSet : DestroyPc → Bool
  | .lock | .notify | .unlock | .join | .done => true
  | .notCalled | .setStop => false

def DestroyPc.notified : DestroyPc → Bool
  | .unlock | .join | .done => true
  | .notCalled | .setStop | .lock | .notify => false

theorem DestroyPc.stopSet_of_notified {pc : DestroyPc} (h : pc.notified = true) : pc.stopSet = true := by
  cases pc <;> first | rfl | cases h

/-- The thread goes through the test of `workerStop` before it waits again, or it has seen the stop. -/
def ThreadPc.parting : ThreadPc → Bool
  | .notified | .checkStop => true
  | pc => pc.stopping

/-- The thread is on its way to the wait. -/
def ThreadPc.approaching : ThreadPc → Bool
  | .run | .execute _ | .restart | .lock => true
  | _ => false

namespace Worker
variable {w w' : Worker} {a : Actor} {i : TaskId}

/-- The destructor has notified and joins the thread, which is blocked in `cv.wait` with no wake-up pending. -/
structure Deadlocked (w : Worker) : Prop where
  stop : w.workerStop = true
  join : w.destroy = .join
  blocked : w.thread = .waiting
  noWake : ¬ w.WakePending

/-- The destructor notifies while the thread is on its way to the wait. -/
def Misses (w : Worker) : Actor → Prop
  | .destroy => w.destroy = .notify ∧ w.thread.approaching = true
  | .thread | .post _ => False

instance (a : Actor) : Decidable (w.Misses a) :=
  match a with
  | .destroy => inferInstanceAs (Decidable (_ ∧ _))
  | .thread | .post _ => inferInstanceAs (Decidable False)

/-- Once it has been notified by the destructor, the thread does not wait again. -/
structure Parting (w : Worker) : Prop where
  lock : w.LockExclusive
  stop : w.destroy.stopSet = true → w.workerStop = true
  parting : w.destroy.notified = true → w.thread.parting = true

theorem parting_init : init.Parting where
  lock := lockExclusive_init
  stop := by simp [init, DestroyPc.stopSet]
  parting := by simp [init, DestroyPc.notified]

/-! ## One step -/

theorem stop_of_step (hs : w.destroy.stopSet = true → w.workerStop = true) (h : w.Step a w') :
    w'.destroy.stopSet = true → w'.workerStop = true := by
  cases a with
  | thread => cases threadMove_of_step h <;> exact hs
  | post i =>
      cases postMove_of_step h with
      | notify => simpa [setPost] using hs
      | call | refuse | check | lock | refuseLocked | recheck | enqueue | unlock | unlockThrow => exact hs
  | destroy =>
      cases destroyMove_of_step h with
      | call => simp [DestroyPc.stopSet]
      | setStop => exact fun _ => rfl
      | notify hpc => simpa [DestroyPc.stopSet, hpc] using hs
      | lock hpc | unlock hpc | join hpc => exact fun _ => hs (by simp [hpc, DestroyPc.stopSet])

theorem parting_thread (hp : w.Parting) (h : ThreadMove w w') (hd : w.destroy.notified = true) :
    w'.thread.parting = true := by
  have hparting := hp.parting hd
  cases h with
  | idle hpc | take hpc | execute hpc | restart hpc | lock hpc | wait hpc | unlock hpc =>
      simp [hpc, ThreadPc.parting, ThreadPc.stopping] at hparting
  | goOn _ hrunning =>
      rw [hp.stop (DestroyPc.stopSet_of_notified hd)] at hrunning
      cases hrunning
  | notified | stop | drained | drain | drainExecute | leave => rfl

theorem parting_notify (h : w.thread.parting = true) : w.notify.thread.parting = true := by
  rcases thread_notify with hthread | hthread
  · rw [hthread, h]
  · rw [hthread]
    rfl

/-- A thread that neither waits nor is on its way to the wait, while another actor holds the lock. -/
theorem parting_of_free (hfree : w.holds .thread = false) (happroaching : w.thread.approaching = false)
    (hwaiting : w.thread ≠ .waiting) : w.thread.parting = true := by
  cases hpc : w.thread with
  | run | execute | restart | lock => simp [hpc, ThreadPc.approaching] at happroaching
  | wait | unlock => simp [holds, hpc, ThreadPc.holdsLock] at hfree
  | waiting => exact absurd hpc hwaiting
  | notified | checkStop | drain | drainExecute | leave | exited => rfl

theorem parting_destroy (hp : w.Parting) (hok : ¬ w.Misses .destroy) (h : DestroyMove w w')
    (hd : w'.destroy.notified = true) : w'.thread.parting = true := by
  cases h with
  | call | setStop | lock => cases hd
  | notify hpc =>
      change w.notify.thread.parting = true
      by_cases hwaiting : w.thread = .waiting
      · simp [notify, hwaiting, ThreadPc.parting]
      · rw [thread_notify_of_ne hwaiting]
        have hheld : w.holds .destroy = true := by simp [holds, hpc, DestroyPc.holdsLock]
        refine parting_of_free (hp.lock.not_holds hheld (by simp)) ?_ hwaiting
        rw [← Bool.not_eq_true]
        exact fun happroaching => hok ⟨hpc, happroaching⟩
  | unlock hpc | join hpc => exact hp.parting (by simp [hpc, DestroyPc.notified])

theorem parting_of_step (hp : w.Parting) (hok : ¬ w.Misses a) (h : w.Step a w') : w'.Parting := by
  refine ⟨lockExclusive_step hp.lock h, stop_of_step hp.stop h, fun hd => ?_⟩
  cases a with
  | thread =>
      have hmove := threadMove_of_step h
      rw [(frame_thread hmove).2] at hd
      exact parting_thread hp hmove hd
  | post i =>
      cases postMove_of_step h with
      | notify => exact parting_notify (hp.parting (by simpa [setPost] using hd))
      | call | refuse | check | lock | refuseLocked | recheck | enqueue | unlock | unlockThrow => exact hp.parting hd
  | destroy => exact parting_destroy hp hok (destroyMove_of_step h) hd

/-! ## Runs -/

/-- **Stopping.** In a run in which the destructor does not notify a thread on its way to the wait, it does not join a
thread that sleeps for ever. -/
theorem never_deadlocked {es : List Actor} (hrun : Run (guarded (fun w a => ¬ w.Misses a) Step) init es w) :
    ¬ w.Deadlocked := by
  intro hdead
  have hp : w.Parting := hrun.guarded_invariant Parting parting_init fun _ _ _ hp hok h => parting_of_step hp hok h
  have hparting := hp.parting (by rw [hdead.join]; rfl)
  rw [hdead.blocked] at hparting
  cases hparting

/-- The theorem at a destructor that finds the thread waiting. -/
theorem never_deadlocked_waiting : ∃ w, Run (guarded (fun w a => ¬ w.Misses a) Step) init
    (.replicate 4 .thread ++ .replicate 5 .destroy) w ∧ ¬ w.Deadlocked := by
  obtain ⟨w, hrun⟩ : ∃ w, Run (guarded (fun w a => ¬ w.Misses a) Step) init
      (.replicate 4 .thread ++ .replicate 5 .destroy) w := ⟨_, Run.guarded_of_foldlM rfl⟩
  exact ⟨w, hrun, never_deadlocked hrun⟩

/-! ## A missed notify -/

/-- The thread goes to sleep in `w'`, and the other actors stand where they were. -/
structure Asleep (w w' : Worker) : Prop where
  thread : w'.thread = .waiting
  free : w'.workerMtx = none
  destroy : w'.destroy = w.destroy
  stop : w'.workerStop = w.workerStop

theorem exists_asleep_of_lock (hpc : w.thread = .lock) (hfree : w.workerMtx = none) :
    ∃ as w', Run Step w as w' ∧ w.Asleep w' := by
  refine ⟨[.thread, .thread], { w with workerMtx := none, thread := .waiting }, Run.of_foldlM ?_, rfl, rfl, rfl, rfl⟩
  simp [next, threadStep, hpc, acquire, hfree, release]

theorem exists_asleep_of_step (h : w.Step .thread w') (hdestroy : w'.destroy = w.destroy)
    (hstop : w'.workerStop = w.workerStop) (hsleep : ∃ as u, Run Step w' as u ∧ w'.Asleep u) :
    ∃ as u, Run Step w as u ∧ w.Asleep u := by
  obtain ⟨as, u, hrun, hasleep⟩ := hsleep
  exact ⟨[] ++ [.thread] ++ as, u, (Run.nil.snoc h).append hrun, hasleep.thread, hasleep.free,
    hasleep.destroy.trans hdestroy, hasleep.stop.trans hstop⟩

theorem exists_asleep_of_restart (hpc : w.thread = .restart) (hfree : w.workerMtx = none) :
    ∃ as w', Run Step w as w' ∧ w.Asleep w' := by
  have hstep : w.Step .thread { w with thread := .lock } := by simp [Step, next, threadStep, hpc]
  exact exists_asleep_of_step hstep rfl rfl (exists_asleep_of_lock rfl hfree)

/-- The thread works its queue off before it sleeps. -/
theorem exists_asleep_of_run (hpc : w.thread = .run) (hfree : w.workerMtx = none) :
    ∃ as w', Run Step w as w' ∧ w.Asleep w' := by
  generalize hqueue : w.workerIO = queue
  induction queue generalizing w with
  | nil =>
      have hstep : w.Step .thread { w with thread := .restart } := by simp [Step, next, threadStep, hpc, hqueue]
      exact exists_asleep_of_step hstep rfl rfl (exists_asleep_of_restart rfl hfree)
  | cons task rest ih =>
      have htake : w.Step .thread { w with workerIO := rest, thread := .execute task } := by
        simp [Step, next, threadStep, hpc, hqueue]
      have hexecute : Step { w with workerIO := rest, thread := .execute task } .thread
          { w with workerIO := rest, thread := .run, executed := w.executed ++ [task] } := by
        simp [Step, next, threadStep]
      exact exists_asleep_of_step htake rfl rfl (exists_asleep_of_step hexecute rfl rfl (ih rfl hfree rfl))

theorem exists_asleep (hpc : w.thread.approaching = true) (hfree : w.workerMtx = none) :
    ∃ as w', Run Step w as w' ∧ w.Asleep w' := by
  cases hthread : w.thread with
  | run => exact exists_asleep_of_run hthread hfree
  | execute task =>
      have hstep : w.Step .thread { w with thread := .run, executed := w.executed ++ [task] } := by
        simp [Step, next, threadStep, hthread]
      exact exists_asleep_of_step hstep rfl rfl (exists_asleep_of_run rfl hfree)
  | restart => exact exists_asleep_of_restart hthread hfree
  | lock => exact exists_asleep_of_lock hthread hfree
  | wait | waiting | notified | checkStop | unlock | drain | drainExecute | leave | exited =>
      simp [hthread, ThreadPc.approaching] at hpc

/-- Any notify that the thread misses can be followed by a deadlock. -/
theorem deadlocked_of_misses {es : List Actor} (hrun : Run Step init es w) (hmisses : w.Misses a) :
    ∃ es' w', Run Step w (a :: es') w' ∧ w'.Deadlocked := by
  cases a with
  | thread | post => exact hmisses.elim
  | destroy =>
      obtain ⟨hpc, happroaching⟩ := hmisses
      have hlock : w.LockExclusive := lock_exclusive hrun
      have hstop : w.workerStop = true :=
        hrun.invariant (fun w => w.destroy.stopSet = true → w.workerStop = true) (by simp [init, DestroyPc.stopSet])
          (fun _ _ _ hs h => stop_of_step hs h) (by rw [hpc]; rfl)
      have hne : w.thread ≠ .waiting := by
        intro hwaiting
        simp [hwaiting, ThreadPc.approaching] at happroaching
      have hjoin : Run Step w [.destroy, .destroy] { w with workerMtx := none, destroy := .join } := by
        refine Run.of_foldlM ?_
        simp [next, destroyStep, hpc, notify, hne, release]
      obtain ⟨as, w', hsleep, hasleep⟩ : ∃ as w', Run Step { w with workerMtx := none, destroy := .join } as w' ∧
          Asleep { w with workerMtx := none, destroy := .join } w' := exists_asleep happroaching rfl
      have hall := hjoin.append hsleep
      have hlock' : w'.LockExclusive :=
        hall.invariant LockExclusive hlock fun _ _ _ h hstep => lockExclusive_step h hstep
      exact ⟨.destroy :: as, w', hall, hasleep.stop.trans hstop, hasleep.destroy, hasleep.thread,
        not_wakePending hlock' hasleep.free⟩

/-- The destructor comes before the thread has reached its first wait. -/
theorem stop_missed : ∃ w, Run Step init (.replicate 5 .destroy ++ .replicate 4 .thread) w ∧ w.Deadlocked := by
  refine ⟨_, Run.of_foldlM rfl, rfl, rfl, rfl, ?_⟩
  rintro (⟨i, hi⟩ | hd)
  · cases hi
  · cases hd

end Worker
end NvmeManager
