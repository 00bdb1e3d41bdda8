import NvmeManager.Worker.Lock

/-!
# Waking the worker thread

The worker thread tests its queue in `io.run()`, before it takes `workerMtx` and waits, and the wait has no predicate.

* `Worker.Stuck` : the thread is blocked in `cv.wait` with a task in its queue, and nobody is about to notify it;
* `Worker.Late` : the step of a `post` that enqueues its task after the thread has found the queue empty and before it
  holds `workerMtx`;
* `Worker.Drained` : the invariant of the runs without a late step, `drained_of_step` for one step;
* `never_stuck` : such a run never gets stuck; `stuck_of_late` : any late step can be continued to a stuck state.
-/

namespace NvmeManager
namespace Worker
variable {w w' : Worker} {a : Actor}

/-- Some thread is about to notify the condition variable. -/
def WakePending (w : Worker) : Prop := (∃ i, w.posts i = .notify) ∨ w.destroy = .notify

/-- The worker thread is blocked in `cv.wait`, with an accepted task in its queue and no wake-up pending. -/
structure Stuck (w : Worker) : Prop where
  blocked : w.thread = .waiting
  task : w.workerIO ≠ []
  noWake : ¬ w.WakePending

/-- The thread stands between the `io.run()` that found the queue empty and the lock of `workerMtx`. -/
def PastRun (w : Worker) : Prop := w.thread = .restart ∨ w.thread = .lock

instance : Decidable w.PastRun := inferInstanceAs (Decidable (_ ∨ _))

/-- A `post` enqueues its task while the worker thread is past `io.run()`. -/
def Late (w : Worker) : Actor → Prop
  | .post i => w.posts i = .enqueue ∧ w.PastRun
  | _ => False

instance (a : Actor) : Decidable (w.Late a) :=
  match a with
  | .post _ => inferInstanceAs (Decidable (_ ∧ _))
  | .thread | .destroy => inferInstanceAs (Decidable False)

/-- Past `io.run()` the queue is empty, and a thread that waits beside a task is about to be notified. -/
structure Drained (w : Worker) : Prop where
  lock : w.LockExclusive
  pastRun : w.PastRun → w.workerIO = []
  wait : w.thread = .wait → w.workerIO = []
  waiting : w.thread = .waiting → w.workerIO = [] ∨ ∃ i, w.posts i = .notify

theorem drained_init : init.Drained where
  lock := lockExclusive_init
  pastRun := fun _ => rfl
  wait := fun _ => rfl
  waiting := fun _ => .inl rfl

/-! ## One step -/

theorem drained_thread (hd : w.Drained) (h : ThreadMove w w') (hlock : w'.LockExclusive) : w'.Drained := by
  cases h with
  | idle _ hqueue => exact ⟨hlock, fun _ => hqueue, by simp, by simp⟩
  | restart hpc => exact ⟨hlock, fun _ => hd.pastRun (.inl hpc), by simp, by simp⟩
  | lock hpc => exact ⟨hlock, by simp [PastRun], fun _ => hd.pastRun (.inr hpc), by simp⟩
  | wait hpc => exact ⟨hlock, by simp [PastRun], by simp, fun _ => .inl (hd.wait hpc)⟩
  | take | execute | notified | stop | goOn | unlock | drained | drain | drainExecute | leave =>
      exact ⟨hlock, by simp [PastRun], by simp, by simp⟩

/-- A step that leaves the thread and its queue alone, and takes no wake-up away. -/
theorem drained_frame (hd : w.Drained) (hlock : w'.LockExclusive) (hthread : w'.thread = w.thread)
    (hqueue : w'.workerIO = w.workerIO) (hwake : ∀ i, w.posts i = .notify → w'.posts i = .notify) : w'.Drained := by
  refine ⟨hlock, ?_, ?_, ?_⟩
  · rw [PastRun, hthread, hqueue]
    exact hd.pastRun
  · rw [hthread, hqueue]
    exact hd.wait
  · rw [hthread, hqueue]
    intro hwaiting
    rcases hd.waiting hwaiting with hempty | ⟨i, hi⟩
    · exact .inl hempty
    · exact .inr ⟨i, hwake i hi⟩

theorem thread_notify_of_ne (h : w.thread ≠ .waiting) : w.notify.thread = w.thread := by
  unfold notify
  rw [if_neg h]

theorem drained_notify (hd : w.Drained) (hlock : w'.LockExclusive) (hthread : w'.thread = w.notify.thread)
    (hqueue : w'.workerIO = w.workerIO) : w'.Drained := by
  by_cases hwaiting : w.thread = .waiting
  · have hnotified : w'.thread = .notified := by
      rw [hthread]
      unfold notify
      rw [if_pos hwaiting]
    exact ⟨hlock, by simp [PastRun, hnotified], by simp [hnotified], by simp [hnotified]⟩
  · rw [thread_notify_of_ne hwaiting] at hthread
    refine ⟨hlock, ?_, ?_, ?_⟩
    · rw [PastRun, hthread, hqueue]
      exact hd.pastRun
    · rw [hthread, hqueue]
      exact hd.wait
    · rw [hthread]
      exact fun h => absurd h hwaiting

theorem posts_setPost_notify {i : TaskId} {pc : PostPc} (h : w.posts i ≠ .notify) (j : TaskId)
    (hj : w.posts j = .notify) : (w.setPost i pc).posts j = .notify := by
  have hne : j ≠ i := by
    rintro rfl
    exact h hj
  rw [posts_setPost_of_ne pc hne, hj]

theorem drained_post {i : TaskId} (hd : w.Drained) (h : PostMove w i w') (hlock : w'.LockExclusive)
    (hlate : ¬ w.Late (.post i)) : w'.Drained := by
  cases h with
  | enqueue hpc =>
      have hpast : ¬ w.PastRun := fun hp => hlate ⟨hpc, hp⟩
      -- the thread cannot hold the lock that this call of `post` holds
      have hwait : w.thread ≠ .wait := by
        intro hw
        have hheld : w.holds (.post i) = true := by simp [holds, hpc, PostPc.holdsLock]
        have hfree : w.holds .thread = false := hd.lock.not_holds hheld (by simp)
        simp [holds, hw, ThreadPc.holdsLock] at hfree
      exact ⟨hlock, fun hp => absurd hp hpast, fun hw => absurd hw hwait, fun _ => .inr ⟨i, posts_setPost i _⟩⟩
  | notify => exact drained_notify hd hlock rfl workerIO_notify
  | call hpc | refuse hpc | check hpc | lock hpc | refuseLocked hpc | recheck hpc | unlock hpc | unlockThrow hpc =>
      exact drained_frame hd hlock rfl rfl (posts_setPost_notify (by simp [hpc]))

theorem drained_destroy (hd : w.Drained) (h : DestroyMove w w') (hlock : w'.LockExclusive) : w'.Drained := by
  cases h with
  | notify => exact drained_notify hd hlock rfl workerIO_notify
  | call | setStop | lock | unlock | join => exact drained_frame hd hlock rfl rfl fun _ hi => hi

theorem drained_of_step (hd : w.Drained) (hlate : ¬ w.Late a) (h : w.Step a w') : w'.Drained := by
  have hlock := lockExclusive_step hd.lock h
  cases a with
  | thread => exact drained_thread hd (threadMove_of_step h) hlock
  | post i => exact drained_post hd (postMove_of_step h) hlock hlate
  | destroy => exact drained_destroy hd (destroyMove_of_step h) hlock

/-! ## Runs -/

theorem drained_of_run {es : List Actor} (hrun : Run (guarded (fun w a => ¬ w.Late a) Step) init es w) :
    w.Drained :=
  hrun.guarded_invariant Drained drained_init fun _ _ _ hd hlate h => drained_of_step hd hlate h

/-- While nobody holds `workerMtx`, nobody is about to notify. -/
theorem not_wakePending (hlock : w.LockExclusive) (hfree : w.workerMtx = none) : ¬ w.WakePending := by
  rintro (⟨i, hi⟩ | hd)
  · have h := hlock (.post i) (by simp [holds, hi, PostPc.holdsLock])
    rw [hfree] at h
    cases h
  · have h := hlock .destroy (by simp [holds, hd, DestroyPc.holdsLock])
    rw [hfree] at h
    cases h

/-- The thread goes to sleep beside a task that has been enqueued behind its back. -/
theorem stuck_of_lock (hlock : w.LockExclusive) (hpc : w.thread = .lock) (hfree : w.workerMtx = none)
    (htask : w.workerIO ≠ []) : ∃ es w', Run Step w es w' ∧ w'.Stuck := by
  have hrun : Run Step w [.thread, .thread] { w with workerMtx := none, thread := .waiting } := by
    refine Run.of_foldlM ?_
    simp [next, threadStep, hpc, acquire, hfree, release]
  have hlock' : LockExclusive { w with workerMtx := none, thread := .waiting } :=
    hrun.invariant LockExclusive hlock fun _ _ _ h hstep => lockExclusive_step h hstep
  exact ⟨_, _, hrun, rfl, htask, not_wakePending hlock' rfl⟩

theorem stuck_of_pastRun (hlock : w.LockExclusive) (hpc : w.PastRun) (hfree : w.workerMtx = none)
    (htask : w.workerIO ≠ []) : ∃ es w', Run Step w es w' ∧ w'.Stuck := by
  rcases hpc with hpc | hpc
  · have hstep : w.Step .thread { w with thread := .lock } := by simp [Step, next, threadStep, hpc]
    obtain ⟨es, w', hrun, hstuck⟩ := stuck_of_lock (lockExclusive_step hlock hstep) rfl hfree htask
    exact ⟨[] ++ [.thread] ++ es, w', (Run.nil.snoc hstep).append hrun, hstuck⟩
  · exact stuck_of_lock hlock hpc hfree htask

/-- Any late step, and the rest of its `post`, can be followed by a thread that goes to sleep beside the task. -/
theorem stuck_of_late {es : List Actor} (hrun : Run Step init es w) (hlate : w.Late a) :
    ∃ es' w', Run Step w (a :: es') w' ∧ w'.Stuck := by
  cases a with
  | thread | destroy => exact hlate.elim
  | post i =>
      obtain ⟨hpc, hpast⟩ := hlate
      have hne : w.thread ≠ .waiting := by
        rcases hpast with h | h <;> simp [h]
      let posted : Worker :=
        { w with workerMtx := none, workerIO := w.workerIO ++ [i], posts := Function.update w.posts i .returned }
      have hposted : Run Step w [.post i, .post i, .post i] posted := by
        refine Run.of_foldlM ?_
        simp [next, postStep, hpc, setPost, notify, hne, release, posted]
      have hlock : posted.LockExclusive :=
        hposted.invariant LockExclusive (lock_exclusive hrun) fun _ _ _ h hstep => lockExclusive_step h hstep
      obtain ⟨es', w', hrest, hstuck⟩ := stuck_of_pastRun hlock hpast rfl (by simp [posted])
      exact ⟨.post i :: .post i :: es', w', hposted.append hrest, hstuck⟩

/-- **Wake-ups.** In a run without a late step the worker thread is never stuck. -/
theorem never_stuck {es : List Actor} (hrun : Run (guarded (fun w a => ¬ w.Late a) Step) init es w) :
    ¬ w.Stuck := by
  intro hstuck
  rcases (drained_of_run hrun).waiting hstuck.blocked with hempty | hnotify
  · exact hstuck.task hempty
  · exact hstuck.noWake (.inl hnotify)

/-- The theorem at a run in which the thread sleeps, and a `post` wakes it. -/
theorem never_stuck_woken : ∃ w, Run (guarded (fun w a => ¬ w.Late a) Step) init
    [.thread, .thread, .thread, .thread, .post 0, .post 0, .post 0, .post 0, .post 0, .post 0] w ∧
    ¬ w.Stuck := by
  obtain ⟨w, hrun⟩ : ∃ w, Run (guarded (fun w a => ¬ w.Late a) Step) init
      [.thread, .thread, .thread, .thread, .post 0, .post 0, .post 0, .post 0, .post 0, .post 0] w :=
    ⟨_, Run.guarded_of_foldlM rfl⟩
  exact ⟨w, hrun, never_stuck hrun⟩

/-- A task posted between the first `io.run()` and the wait: the thread sleeps, and nobody wakes it. -/
theorem lost_wakeup : ∃ w, Run Step init
    [.thread, .post 0, .post 0, .post 0, .post 0, .post 0, .post 0, .post 0, .thread, .thread, .thread] w ∧
    w.Stuck := by
  refine ⟨_, Run.of_foldlM rfl, rfl, nofun, ?_⟩
  rintro (⟨i, hi⟩ | hd)
  · by_cases h : i = 0
    · subst h
      cases hi
    · simp [h, init, setPost, notify, release] at hi
  · cases hd

end Worker
end NvmeManager
