import NvmeManager.Worker.Machine

/-!
# The lock of the worker

* `Worker.holds w a` : actor `a` stands between a `lock` and the matching `unlock`;
* `LockEffect` : what a step does to the lock: it leaves it alone, takes a free lock, or gives up the actor's own;
  `lockEffect_of_step` says so of every step, and that no step moves another actor into or out of its critical section;
* `lock_exclusive` : in every reachable state an actor in its critical section is the holder of `workerMtx`, so that
  there is at most one.
-/

namespace NvmeManager

def ThreadPc.holdsLock : ThreadPc → Bool
  | .wait | .checkStop | .unlock | .drain | .drainExecute _ | .leave => true
  | _ => false

def PostPc.holdsLock : PostPc → Bool
  | .recheck | .enqueue | .notify | .unlock | .unlockThrow => true
  | _ => false

def DestroyPc.holdsLock : DestroyPc → Bool
  | .notify | .unlock => true
  | _ => false

namespace Worker
variable {w w' : Worker} {a b : Actor}

def holds (w : Worker) : Actor → Bool
  | .thread => w.thread.holdsLock
  | .post i => (w.posts i).holdsLock
  | .destroy => w.destroy.holdsLock

/-- What a step of `a` does to the lock. -/
inductive LockEffect (a : Actor) (w w' : Worker) : Prop
  | keep (mtx : w'.workerMtx = w.workerMtx) (own : w'.holds a = w.holds a)
  | acquire (free : w.workerMtx = none) (mtx : w'.workerMtx = some a)
  | release (held : w.holds a = true) (mtx : w'.workerMtx = none) (own : w'.holds a = false)

theorem lockEffect_thread (h : ThreadMove w w') : LockEffect .thread w w' := by
  cases h with
  | lock _ hfree | notified _ hfree => exact .acquire hfree rfl
  | wait hpc | unlock hpc | leave hpc => exact .release (by simp [holds, hpc, ThreadPc.holdsLock]) rfl rfl
  | idle hpc | take hpc | execute hpc | restart hpc | stop hpc | goOn hpc | drained hpc | drain hpc | drainExecute hpc =>
      exact .keep rfl (by simp [holds, hpc, ThreadPc.holdsLock])

@[simp] theorem posts_setPost (i : TaskId) (pc : PostPc) : (w.setPost i pc).posts i = pc := by
  simp [setPost]

theorem posts_setPost_of_ne {i j : TaskId} (pc : PostPc) (h : j ≠ i) : (w.setPost i pc).posts j = w.posts j := by
  simp [setPost, h]

@[simp] theorem workerMtx_notify : w.notify.workerMtx = w.workerMtx := by
  unfold notify
  split <;> rfl

@[simp] theorem posts_notify : w.notify.posts = w.posts := by
  unfold notify
  split <;> rfl

@[simp] theorem destroy_notify : w.notify.destroy = w.destroy := by
  unfold notify
  split <;> rfl

@[simp] theorem workerIO_notify : w.notify.workerIO = w.workerIO := by
  unfold notify
  split <;> rfl

theorem lockEffect_post {i : TaskId} (h : PostMove w i w') : LockEffect (.post i) w w' := by
  cases h with
  | lock _ hfree => exact .acquire hfree rfl
  | unlock hpc | unlockThrow hpc =>
      exact .release (by simp [holds, hpc, PostPc.holdsLock]) rfl (by simp [holds, PostPc.holdsLock])
  | notify hpc => exact .keep (by simp [setPost]) (by simp [holds, hpc, PostPc.holdsLock])
  | call hpc | refuse hpc | check hpc | refuseLocked hpc | recheck hpc | enqueue hpc =>
      exact .keep rfl (by simp [holds, hpc, PostPc.holdsLock])

theorem lockEffect_destroy (h : DestroyMove w w') : LockEffect .destroy w w' := by
  cases h with
  | lock _ hfree => exact .acquire hfree rfl
  | unlock hpc => exact .release (by simp [holds, hpc, DestroyPc.holdsLock]) rfl rfl
  | notify hpc => exact .keep (by simp) (by simp [holds, hpc, DestroyPc.holdsLock])
  | call hpc | setStop hpc | join hpc => exact .keep rfl (by simp [holds, hpc, DestroyPc.holdsLock])

theorem lockEffect_of_step (h : w.Step a w') : LockEffect a w w' := by
  cases a with
  | thread => exact lockEffect_thread (threadMove_of_step h)
  | post i => exact lockEffect_post (postMove_of_step h)
  | destroy => exact lockEffect_destroy (destroyMove_of_step h)

/-! ## The other actors -/

@[simp] theorem holds_notify : w.notify.holds b = w.holds b := by
  unfold notify
  split
  · next hwaiting => cases b <;> simp [holds, hwaiting, ThreadPc.holdsLock]
  · rfl

theorem holds_setPost_of_ne {i : TaskId} (pc : PostPc) (h : b ≠ .post i) : (w.setPost i pc).holds b = w.holds b := by
  cases b with
  | post j =>
      have hne : j ≠ i := fun hji => h (congrArg Actor.post hji)
      simp only [holds, posts_setPost_of_ne pc hne]
  | _ => rfl

theorem frame_thread (h : ThreadMove w w') : w'.posts = w.posts ∧ w'.destroy = w.destroy := by
  cases h <;> exact ⟨rfl, rfl⟩

/-- A step moves no other actor into or out of its critical section. -/
theorem holds_of_step (h : w.Step a w') (hb : b ≠ a) : w'.holds b = w.holds b := by
  cases a with
  | thread =>
      obtain ⟨hposts, hdestroy⟩ := frame_thread (threadMove_of_step h)
      cases b with
      | thread => exact absurd rfl hb
      | post j => simp only [holds, hposts]
      | destroy => simp only [holds, hdestroy]
  | post i =>
      cases postMove_of_step h with
      | notify =>
          rw [holds_setPost_of_ne _ hb]
          exact holds_notify
      | call | refuse | check | refuseLocked | recheck => exact holds_setPost_of_ne _ hb
      | lock | enqueue | unlock | unlockThrow =>
          rw [holds_setPost_of_ne _ hb]
          cases b <;> rfl
  | destroy =>
      cases destroyMove_of_step h with
      | notify =>
          cases b with
          | destroy => exact absurd rfl hb
          | thread =>
              change w.notify.holds .thread = w.holds .thread
              exact holds_notify
          | post j =>
              change w.notify.holds (.post j) = w.holds (.post j)
              exact holds_notify
      | call | setStop | lock | unlock | join =>
          cases b with
          | destroy => exact absurd rfl hb
          | thread | post => rfl

/-! ## Exclusion -/

/-- An actor in its critical section is the holder of `workerMtx`. -/
def LockExclusive (w : Worker) : Prop := ∀ b, w.holds b = true → w.workerMtx = some b

theorem lockExclusive_init : init.LockExclusive := by
  intro b hb
  cases b <;> cases hb

theorem lockExclusive_step (hlock : w.LockExclusive) (h : w.Step a w') : w'.LockExclusive := by
  intro b hb
  by_cases hba : b = a
  · subst hba
    cases lockEffect_of_step h with
    | keep mtx own =>
        rw [mtx]
        exact hlock b (own ▸ hb)
    | acquire _ mtx => exact mtx
    | release _ _ own =>
        rw [own] at hb
        cases hb
  · rw [holds_of_step h hba] at hb
    have hheld := hlock b hb
    cases lockEffect_of_step h with
    | keep mtx _ => rw [mtx, hheld]
    | acquire free _ =>
        rw [free] at hheld
        cases hheld
    | release held _ _ =>
        rw [hlock a held] at hheld
        exact absurd (Option.some.inj hheld).symm hba

/-- In every reachable state an actor in its critical section is the holder of `workerMtx`. -/
theorem lock_exclusive {es : List Actor} (hrun : Run Step init es w) : w.LockExclusive :=
  hrun.invariant LockExclusive lockExclusive_init fun _ _ _ hlock h => lockExclusive_step hlock h

theorem LockExclusive.not_holds (hlock : w.LockExclusive) (ha : w.holds a = true) (hab : b ≠ a) :
    w.holds b = false := by
  by_contra hb
  have hb : w.holds b = true := by simpa using hb
  have heq : some b = some a := (hlock b hb).symm.trans (hlock a ha)
  exact hab (Option.some.inj heq)

end Worker
end NvmeManager
