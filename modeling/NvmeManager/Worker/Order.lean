import NvmeManager.Worker.Lock
import Mathlib.Data.List.Nodup

/-!
# The order of the tasks

* `Worker.started`, `Worker.accepted` : the tasks that have been taken from the queue, and those with the queue;
* `Worker.Closing` : what holds once the thread has seen the stop: its last `io.run()` leaves an empty queue behind, and
  no `post` fills it again;
* `Logged` : a worker with the calls of `post` in the order in which they took `workerMtx`; `Logged.Step` : its steps,
  with the wake-ups that no notify has caused;
* `Logged.Ordered` : the tasks that were accepted are those of the calls in this order that have enqueued theirs;
* `Logged.in_order_of_run` : the tasks are executed in this order, each once, and none is left behind.
-/

namespace NvmeManager

def ThreadPc.current : ThreadPc → List TaskId
  | .execute task | .drainExecute task => [task]
  | _ => []

/-- The thread has seen the stop. -/
def ThreadPc.stopping : ThreadPc → Bool
  | .drain | .drainExecute _ | .leave | .exited => true
  | _ => false

def PostPc.beforeLock : PostPc → Bool
  | .notCalled | .check | .lock => true
  | _ => false

def PostPc.enqueued : PostPc → Bool
  | .notify | .unlock | .returned => true
  | _ => false

namespace Worker
variable {w w' : Worker} {a : Actor} {i : TaskId}

/-- The tasks whose execution has begun, oldest first. -/
def started (w : Worker) : List TaskId := w.executed ++ w.thread.current

/-- The tasks that have been put into the queue, oldest first. -/
def accepted (w : Worker) : List TaskId := w.started ++ w.workerIO

/-! ## The accepted tasks -/

/-- The thread moves tasks on, but takes none away. -/
theorem accepted_thread (h : ThreadMove w w') : w'.accepted = w.accepted := by
  cases h with
  | take hpc hqueue | drain hpc hqueue => simp [accepted, started, hpc, hqueue, ThreadPc.current]
  | execute hpc | drainExecute hpc => simp [accepted, started, hpc, ThreadPc.current]
  | idle hpc | restart hpc | lock hpc | wait hpc | notified hpc | stop hpc | goOn hpc | unlock hpc | drained hpc
  | leave hpc => simp [accepted, started, hpc, ThreadPc.current]

@[simp] theorem accepted_notify : w.notify.accepted = w.accepted := by
  unfold notify
  split
  · next hwaiting => simp [accepted, started, hwaiting, ThreadPc.current]
  · rfl

/-! ## The end of the thread -/

/-- A thread that has seen the stop leaves an empty queue behind. -/
structure Closing (w : Worker) : Prop where
  stopped : w.thread.stopping = true → w.workerStop = true
  drained : w.thread = .leave ∨ w.thread = .exited → w.workerIO = []
  /-- No call of `post` that saw the worker run is still on its way to the queue. -/
  closed : w.thread = .exited → ∀ i, w.posts i ≠ .enqueue

theorem closing_init : init.Closing where
  stopped := by simp [init, ThreadPc.stopping]
  drained := by simp [init]
  closed := by simp [init]

theorem closing_of_notStopping (h : w.thread.stopping = false) : w.Closing := by
  refine ⟨fun hstop => ?_, ?_, ?_⟩
  · rw [h] at hstop
    cases hstop
  · rintro (hpc | hpc)
    · simp [hpc, ThreadPc.stopping] at h
    · simp [hpc, ThreadPc.stopping] at h
  · intro hpc
    simp [hpc, ThreadPc.stopping] at h

theorem closing_thread (hc : w.Closing) (hlock : w.LockExclusive) (h : ThreadMove w w') : w'.Closing := by
  cases h with
  | idle | take | execute | restart | lock | wait | notified | goOn | unlock => exact closing_of_notStopping rfl
  | stop _ hstop => exact ⟨fun _ => hstop, by simp, by simp⟩
  | drained hpc hqueue => exact ⟨fun _ => hc.stopped (by simp [hpc, ThreadPc.stopping]), fun _ => hqueue, by simp⟩
  | drain hpc | drainExecute hpc => exact ⟨fun _ => hc.stopped (by simp [hpc, ThreadPc.stopping]), by simp, by simp⟩
  | leave hpc =>
      refine ⟨fun _ => hc.stopped (by simp [hpc, ThreadPc.stopping]), fun _ => hc.drained (.inl hpc), fun _ i hi => ?_⟩
      -- the thread holds the lock that a call needs for the queue
      have hheld : w.holds .thread = true := by simp [holds, hpc, ThreadPc.holdsLock]
      have hfree : w.holds (.post i) = false := hlock.not_holds hheld (by simp)
      change w.posts i = .enqueue at hi
      simp [holds, hi, PostPc.holdsLock] at hfree

theorem closing_frame (hc : w.Closing) (hthread : w'.thread = w.thread ∨ w'.thread = .notified)
    (hstop : w.workerStop = true → w'.workerStop = true) (hqueue : w'.workerIO = w.workerIO)
    (hclosed : w.thread = .exited → ∀ i, w'.posts i ≠ .enqueue) : w'.Closing := by
  rcases hthread with hthread | hthread
  · refine ⟨?_, ?_, ?_⟩
    · rw [hthread]
      exact fun h => hstop (hc.stopped h)
    · rw [hthread, hqueue]
      exact hc.drained
    · rw [hthread]
      exact hclosed
  · exact closing_of_notStopping (by rw [hthread]; rfl)

theorem thread_notify : w.notify.thread = w.thread ∨ w.notify.thread = .notified := by
  unfold notify
  split
  · exact .inr rfl
  · exact .inl rfl

@[simp] theorem workerStop_notify : w.notify.workerStop = w.workerStop := by
  unfold notify
  split <;> rfl

theorem posts_setPost_ne_enqueue {pc : PostPc} (hpc : pc ≠ .enqueue) (h : ∀ j, w.posts j ≠ .enqueue) (j : TaskId) :
    (w.setPost i pc).posts j ≠ .enqueue := by
  by_cases hji : j = i
  · rw [hji, posts_setPost]
    exact hpc
  · rw [posts_setPost_of_ne pc hji]
    exact h j

theorem closing_post (hc : w.Closing) (hlock : w.LockExclusive) (h : PostMove w i w') : w'.Closing := by
  cases h with
  | call | refuse | check | lock | refuseLocked | unlock | unlockThrow =>
      exact closing_frame hc (.inl rfl) id rfl fun hpc => posts_setPost_ne_enqueue (by simp) (hc.closed hpc)
  | recheck _ hrunning =>
      refine closing_frame hc (.inl rfl) id rfl fun hpc => ?_
      have hstop := hc.stopped (by simp [hpc, ThreadPc.stopping])
      rw [hrunning] at hstop
      cases hstop
  | enqueue hpc =>
      have hheld : w.holds (.post i) = true := by simp [holds, hpc, PostPc.holdsLock]
      have hfree : w.holds .thread = false := hlock.not_holds hheld (by simp)
      have hexited : w.thread ≠ .exited := fun hexited => hc.closed hexited i hpc
      have hleave : w.thread ≠ .leave := by
        intro hleave
        simp [holds, hleave, ThreadPc.holdsLock] at hfree
      exact ⟨hc.stopped, fun h => (h.elim hleave hexited).elim, fun h => absurd h hexited⟩
  | notify =>
      refine closing_frame hc thread_notify (by simp [setPost]) (by simp [setPost]) fun hpc => ?_
      refine posts_setPost_ne_enqueue (by simp) ?_
      rw [posts_notify]
      exact hc.closed hpc

theorem closing_destroy (hc : w.Closing) (h : DestroyMove w w') : w'.Closing := by
  cases h with
  | call | lock | unlock | join => exact closing_frame hc (.inl rfl) id rfl hc.closed
  | setStop => exact closing_frame hc (.inl rfl) (fun _ => rfl) rfl hc.closed
  | notify => exact closing_frame hc thread_notify (by simp) (by simp) (by simpa using hc.closed)

theorem closing_of_step (hc : w.Closing) (hlock : w.LockExclusive) (h : w.Step a w') : w'.Closing := by
  cases a with
  | thread => exact closing_thread hc hlock (threadMove_of_step h)
  | post i => exact closing_post hc hlock (postMove_of_step h)
  | destroy => exact closing_destroy hc (destroyMove_of_step h)

/-! ## The order of the lock -/

/-- A worker, and the calls of `post` that have taken `workerMtx`, in that order. -/
structure Logged where
  worker : Worker
  locked : List TaskId

namespace Logged

def init : Logged := ⟨.init, []⟩

/-- The order after a step of an actor: a call of `post` that takes the lock is the next one. -/
def lockedBy (l : Logged) : Actor → List TaskId
  | .post i => if l.worker.posts i = .lock then l.locked ++ [i] else l.locked
  | .thread | .destroy => l.locked

/-- An actor takes a step, or the thread wakes up although nobody has notified it. -/
inductive Move
  | step (a : Actor)
  | spurious
  deriving DecidableEq, Repr

inductive Step : Logged → Move → Logged → Prop
  | step {l : Logged} {a : Actor} {w' : Worker} : l.worker.Step a w' → Step l (.step a) ⟨w', l.lockedBy a⟩
  | spurious {l : Logged} :
      l.worker.thread = .waiting → Step l .spurious ⟨{ l.worker with thread := .notified }, l.locked⟩

variable {l l' : Logged} {m : Move} {i : TaskId} {w' : Worker}

/-- The accepted tasks are those of the calls that have enqueued theirs, in the order of the lock; a call that holds the
lock is the last to have taken it. -/
structure Ordered (l : Logged) : Prop where
  nodup : l.locked.Nodup
  entered : ∀ i ∈ l.locked, (l.worker.posts i).beforeLock = false
  holder : ∀ i, (l.worker.posts i).holdsLock = true → ∃ pre, l.locked = pre ++ [i]
  enqueued : ∀ i, (l.worker.posts i).enqueued = true → i ∈ l.locked
  accepted : l.worker.accepted = l.locked.filter fun i => (l.worker.posts i).enqueued

theorem ordered_init : init.Ordered where
  nodup := List.nodup_nil
  entered := fun _ hi => absurd hi List.not_mem_nil
  holder := fun _ h => by cases h
  enqueued := fun _ h => by cases h
  accepted := rfl

theorem ordered_frame (ho : l.Ordered) (hposts : w'.posts = l.worker.posts)
    (haccepted : w'.accepted = l.worker.accepted) : Ordered ⟨w', l.locked⟩ := by
  refine ⟨ho.nodup, ?_, ?_, ?_, ?_⟩
  · simpa only [hposts] using ho.entered
  · simpa only [hposts] using ho.holder
  · simpa only [hposts] using ho.enqueued
  · simpa only [hposts, haccepted] using ho.accepted

/-- A step moves one call, and no other. -/
structure Moves (w : Worker) (i : TaskId) (pc : PostPc) (w' : Worker) : Prop where
  self : w'.posts i = pc
  others : ∀ j, j ≠ i → w'.posts j = w.posts j

theorem moves_setPost {w : Worker} (pc : PostPc) (h : w'.posts = w.posts) : Moves w i pc (w'.setPost i pc) := by
  refine ⟨posts_setPost i pc, fun j hj => ?_⟩
  rw [posts_setPost_of_ne pc hj, h]

/-- A call goes on, without the lock, or while it keeps the lock, and without its task. -/
theorem ordered_move {pc : PostPc} (ho : l.Ordered) (hmoves : Moves l.worker i pc w')
    (haccepted : w'.accepted = l.worker.accepted)
    (hbefore : pc.beforeLock = true → (l.worker.posts i).beforeLock = true)
    (hholds : pc.holdsLock = true → (l.worker.posts i).holdsLock = true)
    (henqueued : pc.enqueued = (l.worker.posts i).enqueued) : Ordered ⟨w', l.locked⟩ := by
  have hsame : ∀ j, (w'.posts j).enqueued = (l.worker.posts j).enqueued := by
    intro j
    by_cases hji : j = i
    · rw [hji, hmoves.self, henqueued]
    · rw [hmoves.others j hji]
  refine ⟨ho.nodup, fun j hj => ?_, fun j hj => ?_, fun j hj => ?_, ?_⟩
  · change (w'.posts j).beforeLock = false
    by_cases hji : j = i
    · rw [hji, hmoves.self, ← Bool.not_eq_true]
      intro hpc
      have hentered := ho.entered j hj
      rw [hji, hbefore hpc] at hentered
      cases hentered
    · rw [hmoves.others j hji]
      exact ho.entered j hj
  · change (w'.posts j).holdsLock = true at hj
    by_cases hji : j = i
    · rw [hji, hmoves.self] at hj
      rw [hji]
      exact ho.holder i (hholds hj)
    · rw [hmoves.others j hji] at hj
      exact ho.holder j hj
  · exact ho.enqueued j ((hsame j).symm.trans hj)
  · change w'.accepted = l.locked.filter fun j => (w'.posts j).enqueued
    rw [haccepted, ho.accepted]
    exact List.filter_congr fun j _ => (hsame j).symm

theorem ordered_lock (ho : l.Ordered) (hlock : l.worker.LockExclusive) (hpc : l.worker.posts i = .lock)
    (hfree : l.worker.workerMtx = none) (hmoves : Moves l.worker i .recheck w')
    (haccepted : w'.accepted = l.worker.accepted) : Ordered ⟨w', l.locked ++ [i]⟩ := by
  have hnew : ∀ j ∈ l.locked, j ≠ i := by
    intro j hj hji
    have hentered := ho.entered j hj
    rw [hji, hpc] at hentered
    cases hentered
  refine ⟨?_, fun j hj => ?_, fun j hj => ?_, fun j hj => ?_, ?_⟩
  · refine List.nodup_append.mpr ⟨ho.nodup, List.nodup_singleton i, fun j hj k hk => ?_⟩
    rw [List.mem_singleton.mp hk]
    exact hnew j hj
  · change (w'.posts j).beforeLock = false
    rcases List.mem_append.mp hj with hj | hj
    · rw [hmoves.others j (hnew j hj)]
      exact ho.entered j hj
    · rw [List.mem_singleton.mp hj, hmoves.self]
      rfl
  · change (w'.posts j).holdsLock = true at hj
    by_cases hji : j = i
    · exact ⟨l.locked, by rw [hji]⟩
    · rw [hmoves.others j hji] at hj
      have hheld := hlock (.post j) hj
      rw [hfree] at hheld
      cases hheld
  · change (w'.posts j).enqueued = true at hj
    by_cases hji : j = i
    · rw [hji]
      exact List.mem_append_right _ (List.mem_singleton_self i)
    · rw [hmoves.others j hji] at hj
      exact List.mem_append_left _ (ho.enqueued j hj)
  · change w'.accepted = (l.locked ++ [i]).filter fun j => (w'.posts j).enqueued
    have hfilter : (l.locked.filter fun j => (w'.posts j).enqueued) =
        l.locked.filter fun j => (l.worker.posts j).enqueued :=
      List.filter_congr fun j hj => by rw [hmoves.others j (hnew j hj)]
    rw [List.filter_append, hfilter, haccepted, ho.accepted]
    simp [hmoves.self, PostPc.enqueued]

/-- A call enqueues its task: no other one has taken the lock since. -/
theorem ordered_enqueue (ho : l.Ordered) (hpc : l.worker.posts i = .enqueue) (hmoves : Moves l.worker i .notify w')
    (haccepted : w'.accepted = l.worker.accepted ++ [i]) : Ordered ⟨w', l.locked⟩ := by
  obtain ⟨pre, hpre⟩ := ho.holder i (by rw [hpc]; rfl)
  have hmem : i ∈ l.locked := by
    rw [hpre]
    exact List.mem_append_right _ (List.mem_singleton_self i)
  have hnew : ∀ j ∈ pre, j ≠ i := by
    intro j hj
    have hnodup := ho.nodup
    rw [hpre] at hnodup
    exact (List.nodup_append.mp hnodup).2.2 j hj i (List.mem_singleton_self i)
  refine ⟨ho.nodup, fun j hj => ?_, fun j hj => ?_, fun j hj => ?_, ?_⟩
  · change (w'.posts j).beforeLock = false
    by_cases hji : j = i
    · rw [hji, hmoves.self]
      rfl
    · rw [hmoves.others j hji]
      exact ho.entered j hj
  · change (w'.posts j).holdsLock = true at hj
    by_cases hji : j = i
    · rw [hji]
      exact ⟨pre, hpre⟩
    · rw [hmoves.others j hji] at hj
      exact ho.holder j hj
  · change (w'.posts j).enqueued = true at hj
    by_cases hji : j = i
    · rw [hji]
      exact hmem
    · rw [hmoves.others j hji] at hj
      exact ho.enqueued j hj
  · change w'.accepted = l.locked.filter fun j => (w'.posts j).enqueued
    have hfilter : (pre.filter fun j => (w'.posts j).enqueued) = pre.filter fun j => (l.worker.posts j).enqueued :=
      List.filter_congr fun j hj => by rw [hmoves.others j (hnew j hj)]
    rw [haccepted, ho.accepted, hpre, List.filter_append, List.filter_append, hfilter]
    simp [hmoves.self, hpc, PostPc.enqueued]

/-! ## Runs -/

theorem lockedBy_post (hpc : l.worker.posts i ≠ .lock) : l.lockedBy (.post i) = l.locked := if_neg hpc

theorem ordered_post (ho : l.Ordered) (hlock : l.worker.LockExclusive) (h : PostMove l.worker i w') :
    Ordered ⟨w', l.lockedBy (.post i)⟩ := by
  cases h with
  | lock hpc hfree =>
      rw [lockedBy, if_pos hpc]
      exact ordered_lock ho hlock hpc hfree (moves_setPost _ rfl) rfl
  | enqueue hpc =>
      rw [lockedBy_post (by simp [hpc])]
      refine ordered_enqueue ho hpc (moves_setPost _ rfl) ?_
      simp [Worker.accepted, Worker.started, setPost]
  | notify hpc =>
      rw [lockedBy_post (by simp [hpc])]
      exact ordered_move ho (moves_setPost _ posts_notify) accepted_notify (by simp [PostPc.beforeLock])
        (by simp [hpc, PostPc.holdsLock]) (by simp [hpc, PostPc.enqueued])
  | call hpc | refuse hpc | check hpc | refuseLocked hpc | recheck hpc | unlock hpc | unlockThrow hpc =>
      rw [lockedBy_post (by simp [hpc])]
      exact ordered_move ho (moves_setPost _ rfl) rfl (by simp [hpc, PostPc.beforeLock])
        (by simp [hpc, PostPc.holdsLock]) (by simp [hpc, PostPc.enqueued])

theorem ordered_of_step {a : Actor} (ho : l.Ordered) (hlock : l.worker.LockExclusive) (h : l.worker.Step a w') :
    Ordered ⟨w', l.lockedBy a⟩ := by
  cases a with
  | thread =>
      have hmove := threadMove_of_step h
      exact ordered_frame ho (frame_thread hmove).1 (accepted_thread hmove)
  | post i => exact ordered_post ho hlock (postMove_of_step h)
  | destroy =>
      cases destroyMove_of_step h with
      | notify => exact ordered_frame ho posts_notify accepted_notify
      | call | setStop | lock | unlock | join => exact ordered_frame ho rfl rfl

/-- The invariant of the runs. -/
structure Sound (l : Logged) : Prop where
  lock : l.worker.LockExclusive
  closing : l.worker.Closing
  ordered : l.Ordered

theorem sound_init : init.Sound := ⟨lockExclusive_init, closing_init, ordered_init⟩

/-- A thread that wakes up by itself holds no lock yet. -/
theorem lockExclusive_spurious (hlock : w'.LockExclusive) : LockExclusive { w' with thread := .notified } := by
  intro b hb
  refine hlock b ?_
  cases b with
  | thread => cases hb
  | post | destroy => exact hb

theorem sound_of_step (hs : l.Sound) (h : Step l m l') : l'.Sound := by
  cases h with
  | step h =>
      exact ⟨lockExclusive_step hs.lock h, closing_of_step hs.closing hs.lock h, ordered_of_step hs.ordered hs.lock h⟩
  | spurious hpc =>
      refine ⟨lockExclusive_spurious hs.lock, closing_of_notStopping rfl, ordered_frame hs.ordered rfl ?_⟩
      simp [Worker.accepted, Worker.started, hpc, ThreadPc.current]

theorem Ordered.nodup_accepted (ho : l.Ordered) : l.worker.accepted.Nodup := by
  rw [ho.accepted]
  exact ho.nodup.filter _

theorem Ordered.mem_accepted (ho : l.Ordered) : i ∈ l.worker.accepted ↔ (l.worker.posts i).enqueued = true := by
  rw [ho.accepted, List.mem_filter]
  exact ⟨fun h => h.2, fun h => ⟨ho.enqueued i h, h⟩⟩

/-- **Order of the tasks.** In every run no task is executed twice; the tasks are executed in the order in which their
calls of `post` took `workerMtx`; the task of a call that threw is not executed; and when the thread has exited, every
task whose call returned has been executed once, and the queue is empty. -/
theorem in_order_of_run {ms : List Move} (hrun : Run Step init ms l) :
    l.worker.started.Nodup ∧
      l.worker.started <+: (l.locked.filter fun i => (l.worker.posts i).enqueued) ∧
      (∀ i, l.worker.posts i = .threw → i ∉ l.worker.started) ∧
      (l.worker.thread = .exited → l.worker.workerIO = [] ∧
        ∀ i, l.worker.posts i = .returned → l.worker.executed.count i = 1) := by
  have hs : l.Sound := hrun.invariant Sound sound_init fun _ _ _ hs h => sound_of_step hs h
  have hnodup := hs.ordered.nodup_accepted
  have hpre : l.worker.started <+: l.worker.accepted := List.prefix_append _ _
  refine ⟨hnodup.sublist hpre.sublist, ?_, fun i hi hstarted => ?_, fun hexited => ⟨?_, fun i hi => ?_⟩⟩
  · rw [← hs.ordered.accepted]
    exact hpre
  · have henqueued := hs.ordered.mem_accepted.mp (hpre.subset hstarted)
    rw [hi] at henqueued
    cases henqueued
  · exact hs.closing.drained (.inr hexited)
  · have haccepted : l.worker.accepted = l.worker.executed := by
      have hqueue := hs.closing.drained (.inr hexited)
      simp [Worker.accepted, Worker.started, hexited, hqueue, ThreadPc.current]
    rw [haccepted] at hnodup
    have hmem : i ∈ l.worker.accepted := hs.ordered.mem_accepted.mpr (by rw [hi]; rfl)
    rw [haccepted] at hmem
    exact List.count_eq_one_of_mem hnodup hmem

theorem run_of_worker {as : List Actor} {w : Worker} (hrun : Run Worker.Step .init as w) :
    ∃ locked, Run Step init (as.map .step) ⟨w, locked⟩ := by
  induction hrun with
  | nil => exact ⟨[], .nil⟩
  | @snoc es w w' a _ h ih =>
      obtain ⟨locked, hlogged⟩ := ih
      rw [List.map_append]
      exact ⟨lockedBy ⟨w, locked⟩ a, hlogged.snoc (.step h)⟩

/-- The theorem at a task that is enqueued before the stop and executed after it. -/
theorem in_order_of_run_drained : ∃ l : Logged,
    Run Step init ((.replicate 4 .thread ++ .replicate 7 (.post 0) ++ .replicate 5 .destroy ++
      .replicate 6 .thread : List Actor).map .step) l ∧
    l.worker.thread = .exited ∧ l.worker.executed.count 0 = 1 := by
  obtain ⟨w, hw, hexited, hreturned⟩ : ∃ w, Run Worker.Step .init (.replicate 4 .thread ++ .replicate 7 (.post 0) ++
      .replicate 5 .destroy ++ .replicate 6 .thread) w ∧ w.thread = .exited ∧ w.posts 0 = .returned :=
    ⟨_, Run.of_foldlM rfl, rfl, rfl⟩
  obtain ⟨locked, hrun⟩ := run_of_worker hw
  exact ⟨_, hrun, hexited, ((in_order_of_run hrun).2.2.2 hexited).2 0 hreturned⟩

end Logged
end Worker
end NvmeManager
