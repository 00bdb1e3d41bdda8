import Mathlib.Data.List.GetD
import Mathlib.Data.List.Nodup
import NvmeManager.Lib.Run
import NvmeManager.Lib.Shared

/-!
# The worker that the interfaces share

An interface takes the worker that `workerMap` has, or makes one, and keeps it; every request that it posts holds the
interface until its closure is destroyed, which happens on the thread of the worker.

* `Sharing` : the interfaces, the workers and their use counts; `release`, `leave` : the end of a reference, with
  `~NVMeMi` and `~Worker`; `construct`, `post` : the functions;
* `Event`, `next` : what the threads can do; the constructor looks into the map and then takes what it has seen;
* `Sharing.Sound` : the counts are exact, and all interfaces have the newest worker; `sound_release`, `sound_of_step`;
* `shared_of_run` : there is never more than one worker that is not stopped, and no request outlives its interface;
* `Single`, `single_of_run` : without a handle that ends there is one worker, for good; `Serves` : what it can have in its
  queue.
-/

namespace NvmeManager

structure Sharing where
  /-- The worker of each interface that has been constructed. -/
  worker : List Nat
  /-- The use count of each interface. -/
  refs : Nat → Nat
  /-- The interfaces that have not been destroyed. -/
  alive : List Nat
  /-- The references that are not of closures. -/
  handles : List Nat
  /-- The number of workers that have been made. -/
  made : Nat
  /-- The use count of each worker. -/
  owners : Nat → Nat
  workerStop : Nat → Bool
  /-- The requests that are queued, each with its worker and the interface that its closure holds, oldest first. -/
  tasks : List (Nat × Nat)
  /-- The requests that the workers are executing. -/
  running : List (Nat × Nat)
  workerMap : Option Nat
  /-- Whether the constructor that is under way has found a worker. -/
  looked : Option Bool
  /-- The requests that a stopped worker has refused. -/
  refused : Nat
  /-- A constructor has locked a worker that was gone. On the way from its last reference to the termination of a worker on
  its own thread one can, but then the process ends: `leave` makes one step of both. -/
  missed : Bool
  /-- A worker has been destroyed on its own thread, which cannot join itself. -/
  terminated : Bool

namespace Sharing

def init : Sharing := ⟨[], fun _ => 0, [], [], 0, fun _ => 0, fun _ => true, [], [], none, none, 0, false, false⟩

variable (r : Sharing)

def workerOf (i : Nat) : Nat := r.worker.getD i 0

def holders : List Nat := r.handles ++ (r.tasks ++ r.running).map Prod.snd

/-- `workerMap` has no worker, or one that is gone. -/
def expired : Bool := r.workerMap.all fun w => r.owners w = 0

/-- A reference to a worker ends; the destructor stops it and joins its thread, before any thread does something else. -/
def leave (w : Nat) (thread : Option Nat) : Sharing :=
  if r.owners w - 1 = 0 then
    { r with
      owners := Function.update r.owners w (r.owners w - 1)
      workerStop := Function.update r.workerStop w true
      terminated := r.terminated || thread = some w }
  else { r with owners := Function.update r.owners w (r.owners w - 1) }

/-- A reference to an interface ends, on the thread of a worker or on that of the main loop; the interface has a reference
to its worker. -/
def release (i : Nat) (thread : Option Nat) : Sharing :=
  if r.refs i - 1 = 0 then
    leave { r with refs := Function.update r.refs i (r.refs i - 1), alive := r.alive.erase i } (r.workerOf i) thread
  else { r with refs := Function.update r.refs i (r.refs i - 1) }

/-- A new interface with this worker, for the maker. -/
def add (w : Nat) : Sharing :=
  { r with
    worker := r.worker ++ [w]
    refs := Function.update r.refs r.worker.length 1
    alive := r.worker.length :: r.alive
    handles := r.worker.length :: r.handles }

/-- The rest of the constructor, after `find` and `expired`. -/
def construct (found : Bool) : Sharing :=
  if found then
    match r.workerMap with
    | some w =>
      if r.owners w = 0 then { r with missed := true }
      else add { r with owners := Function.update r.owners w (r.owners w + 1) } w
    | none => { r with missed := true }
  else
    add { r with
      made := r.made + 1
      owners := Function.update r.owners r.made 1
      workerStop := Function.update r.workerStop r.made false
      workerMap := some r.made } r.made

/-- `post`, which throws if the worker has been stopped. -/
def post (i : Nat) : Sharing :=
  if r.workerStop (r.workerOf i) then { r with refused := r.refused + 1 }
  else { r with refs := Function.update r.refs i (r.refs i + 1), tasks := r.tasks ++ [(r.workerOf i, i)] }

/-- What the threads can do next. -/
inductive Event
  /-- A constructor looks into `workerMap`, -/
  | look
  /-- and goes on. -/
  | take
  | share (i : Nat)
  /-- A handle ends, on the thread of a worker whose closure has it, or on that of the main loop. -/
  | drop (i : Nat) (thread : Option Nat)
  | post (i : Nat)
  /-- A worker takes its oldest request, -/
  | execute (w : Nat)
  /-- and destroys its closure. -/
  | finish (w : Nat)

/-- The thread can do something with a handle: the main loop is not in a constructor, the worker executes a request. -/
def Free : Option Nat → Prop
  | none => r.looked = none
  | some w => ∃ a ∈ r.running, a.1 = w

instance (thread : Option Nat) : Decidable (r.Free thread) :=
  match thread with
  | none => inferInstanceAs (Decidable (r.looked = none))
  | some w => inferInstanceAs (Decidable (∃ a ∈ r.running, a.1 = w))

def next (e : Event) : Option Sharing :=
  if r.terminated then none
  else
    match e with
    | .look => if r.looked = none then some { r with looked := some !r.expired } else none
    | .take => r.looked.map fun found => construct { r with looked := none } found
    | .share i =>
      if r.looked = none ∧ i ∈ r.handles then
        some { r with refs := Function.update r.refs i (r.refs i + 1), handles := i :: r.handles }
      else none
    | .drop i thread =>
      if r.Free thread ∧ i ∈ r.handles then some (release { r with handles := r.handles.erase i } i thread) else none
    | .post i => if r.looked = none ∧ i ∈ r.handles then some (r.post i) else none
    | .execute w =>
      if ∃ a ∈ r.running, a.1 = w then none
      else (r.tasks.find? (·.1 = w)).map fun a => { r with tasks := r.tasks.erase a, running := a :: r.running }
    | .finish w =>
      (r.running.find? (·.1 = w)).map fun a => release { r with running := r.running.erase a } a.2 (some w)

def Step (r : Sharing) (e : Event) (r' : Sharing) : Prop := r.next e = some r'

/-! ## Soundness -/

/-- What holds while the running code has the references `extra` of its own. -/
structure Sound (r : Sharing) (extra : List Nat) : Prop where
  /-- An interface has the references that are held, and is destroyed with the last, -/
  refs : RefCount r.refs (extra ++ r.holders)
  alive : ∀ i, i ∈ r.alive ↔ i ∈ extra ++ r.holders
  nodup : r.alive.Nodup
  known : ∀ i ∈ r.alive, i < r.worker.length
  /-- and a worker those of the interfaces, which all have the newest one. -/
  owners : RefCount r.owners (r.alive.map r.workerOf)
  newest : ∀ i ∈ r.alive, r.workerMap = some (r.workerOf i)
  tasks : ∀ a ∈ r.tasks ++ r.running, r.workerOf a.2 = a.1
  map : ∀ w ∈ r.workerMap, w < r.made
  stopped : ∀ w < r.made, r.workerStop w = true ↔ r.owners w = 0
  /-- What a constructor has seen does not change while it is under way. -/
  looked : r.terminated = false → ∀ found ∈ r.looked, (found = false ↔ r.alive = [])
  terminated : r.terminated = true → r.alive = []
  refused : r.refused = 0
  missed : r.missed = false

theorem sound_init : init.Sound [] := by
  refine ⟨fun _ => rfl, fun _ => Iff.rfl, List.nodup_nil, nofun, fun _ => rfl, nofun, nofun, nofun, nofun, nofun, nofun,
    rfl, rfl⟩

variable {r} {extra : List Nat} {i w : Nat}

namespace Sound

theorem alive_of_handle (h : r.Sound []) (hi : i ∈ r.handles) : i ∈ r.alive := by
  rw [h.alive i, List.nil_append]
  exact List.mem_append_left _ hi

theorem alive_of_task (h : r.Sound []) {a : Nat × Nat} (ha : a ∈ r.tasks ++ r.running) : a.2 ∈ r.alive := by
  rw [h.alive a.2, List.nil_append]
  exact List.mem_append_right _ (List.mem_map_of_mem ha)

theorem unstopped (h : r.Sound extra) (hi : i ∈ r.alive) :
    0 < r.owners (r.workerOf i) ∧ r.workerStop (r.workerOf i) = false := by
  have hpos : 0 < r.owners (r.workerOf i) := h.owners.pos_iff.mpr (List.mem_map_of_mem hi)
  refine ⟨hpos, ?_⟩
  cases hstop : r.workerStop (r.workerOf i) with
  | false => rfl
  | true =>
      have hzero := (h.stopped _ (h.map _ (h.newest i hi))).mp hstop
      omega

theorem expired_iff (h : r.Sound extra) : r.expired = true ↔ r.alive = [] := by
  constructor
  · intro hexpired
    rw [List.eq_nil_iff_forall_not_mem]
    intro i hi
    have hpos := (h.unstopped hi).1
    unfold expired at hexpired
    rw [h.newest i hi] at hexpired
    have hzero : r.owners (r.workerOf i) = 0 := by simpa using hexpired
    omega
  · intro hnone
    unfold expired
    cases r.workerMap with
    | none => rfl
    | some w =>
        have hzero : r.owners w = 0 := by rw [h.owners w, hnone]; rfl
        simpa using hzero

theorem hold (h : r.Sound extra) (hi : i ∈ r.alive) :
    ({ r with refs := Function.update r.refs i (r.refs i + 1) } : Sharing).Sound (i :: extra) := by
  refine ⟨h.refs.copy i, fun j => ?_, h.nodup, h.known, h.owners, h.newest, h.tasks, h.map, h.stopped, h.looked,
    h.terminated, h.refused, h.missed⟩
  rw [List.cons_append, List.mem_cons]
  refine ⟨fun hj => .inr ((h.alive j).mp hj), ?_⟩
  rintro (rfl | hj)
  · exact hi
  · exact (h.alive j).mpr hj

theorem unlooked (h : r.Sound extra) : ({ r with looked := none } : Sharing).Sound extra :=
  ⟨h.refs, h.alive, h.nodup, h.known, h.owners, h.newest, h.tasks, h.map, h.stopped, nofun, h.terminated, h.refused,
    h.missed⟩

theorem exchange (h : r.Sound extra) {extra' handles' : List Nat} {tasks' running' : List (Nat × Nat)}
    (hperm : (extra ++ r.holders).Perm (extra' ++ (handles' ++ (tasks' ++ running').map Prod.snd)))
    (htasks : ∀ a ∈ tasks' ++ running', r.workerOf a.2 = a.1) :
    ({ r with handles := handles', tasks := tasks', running := running' } : Sharing).Sound extra' := by
  refine ⟨h.refs.perm hperm, fun j => ?_, h.nodup, h.known, h.owners, h.newest, htasks, h.map, h.stopped, h.looked,
    h.terminated, h.refused, h.missed⟩
  rw [h.alive j]
  exact hperm.mem_iff

end Sound
/-! ## The end of a reference -/

theorem Sound.alive_erase (h : r.Sound [i]) (hnot : i ∉ r.holders) (j : Nat) : j ∈ r.alive.erase i ↔ j ∈ r.holders := by
  rw [h.nodup.mem_erase_iff, h.alive j, List.singleton_append, List.mem_cons]
  constructor
  · rintro ⟨hne, rfl | hj⟩
    · exact absurd rfl hne
    · exact hj
  · intro hj
    refine ⟨?_, .inr hj⟩
    rintro rfl
    exact hnot hj

theorem Sound.owners_erase (h : r.Sound [i]) :
    RefCount r.owners (r.workerOf i :: (r.alive.erase i).map r.workerOf) := by
  have hi : i ∈ r.alive := (h.alive i).mpr List.mem_cons_self
  exact h.owners.perm ((List.perm_cons_erase hi).map r.workerOf)

/-- The interfaces that are left have the same worker. -/
theorem Sound.last_owner (h : r.Sound [i]) : r.owners (r.workerOf i) - 1 = 0 ↔ r.alive.erase i = [] := by
  have hi : i ∈ r.alive := (h.alive i).mpr List.mem_cons_self
  rw [h.owners_erase.last_iff, List.eq_nil_iff_forall_not_mem]
  constructor
  · intro hnot j hj
    have hsame : r.workerOf j = r.workerOf i :=
      Option.some.inj ((h.newest j (List.mem_of_mem_erase hj)).symm.trans (h.newest i hi))
    exact hnot (hsame ▸ List.mem_map_of_mem hj)
  · intro hnone hmem
    obtain ⟨j, hj, -⟩ := List.mem_map.mp hmem
    exact hnone j hj

/-- A reference ends: on the thread of the worker of the interface, or where no constructor is under way. -/
theorem sound_release {thread : Option Nat} (h : r.Sound [i])
    (hthread : r.looked = none ∨ thread = some (r.workerOf i)) : (r.release i thread).Sound [] := by
  have hi : i ∈ r.alive := (h.alive i).mpr List.mem_cons_self
  have hrunning : r.terminated = false := by
    cases hterminated : r.terminated with
    | false => rfl
    | true =>
        rw [h.terminated hterminated] at hi
        cases hi
  unfold release
  by_cases hlast : r.refs i - 1 = 0
  · have hnot : i ∉ r.holders := (RefCount.last_iff h.refs).mp hlast
    have howners := h.owners_erase.release
    rw [if_pos hlast]
    unfold leave
    dsimp only
    by_cases hdestroyed : r.owners (r.workerOf i) - 1 = 0
    · -- the last interface goes, and the worker with it
      have hnone := h.last_owner.mp hdestroyed
      rw [if_pos hdestroyed]
      refine ⟨h.refs.release, h.alive_erase hnot, h.nodup.erase i, fun j hj => h.known j (List.mem_of_mem_erase hj),
        howners, fun j hj => h.newest j (List.mem_of_mem_erase hj), h.tasks, h.map, fun w hw => ?_,
        fun hterminated found hfound => ?_, fun _ => hnone, h.refused, h.missed⟩
      · dsimp only
        rw [Function.update_apply, Function.update_apply]
        by_cases hsame : w = r.workerOf i
        · simp [hsame, hdestroyed]
        · rw [if_neg hsame, if_neg hsame]
          exact h.stopped w hw
      · rcases hthread with hlooked | rfl
        · rw [hlooked] at hfound
          cases hfound
        · simp at hterminated
    · have hsome : ¬ r.alive.erase i = [] := fun hnone => hdestroyed (h.last_owner.mpr hnone)
      rw [if_neg hdestroyed]
      refine ⟨h.refs.release, h.alive_erase hnot, h.nodup.erase i, fun j hj => h.known j (List.mem_of_mem_erase hj),
        howners, fun j hj => h.newest j (List.mem_of_mem_erase hj), h.tasks, h.map, fun w hw => ?_,
        fun _ found hfound => ?_, fun hterminated => absurd hterminated (by simp [hrunning]), h.refused, h.missed⟩
      · dsimp only
        rw [Function.update_apply]
        by_cases hsame : w = r.workerOf i
        · rw [if_pos hsame, hsame, h.stopped _ (hsame ▸ hw)]
          have hpos := (h.unstopped hi).1
          omega
        · rw [if_neg hsame]
          exact h.stopped w hw
      · exact ⟨fun hnone => absurd ((h.looked hrunning found hfound).mp hnone ▸ hi) List.not_mem_nil,
          fun hnone => absurd hnone hsome⟩
  · have hmem : i ∈ r.holders := by
      by_contra hnot
      exact hlast ((RefCount.last_iff h.refs).mpr hnot)
    rw [if_neg hlast]
    refine ⟨h.refs.release, fun j => ?_, h.nodup, h.known, h.owners, h.newest, h.tasks, h.map, h.stopped, h.looked,
      h.terminated, h.refused, h.missed⟩
    rw [h.alive j, List.singleton_append, List.mem_cons]
    refine ⟨?_, .inr⟩
    rintro (rfl | hj)
    · exact hmem
    · exact hj

/-! ## The constructor -/

theorem workerOf_add {j : Nat} (hj : j < r.worker.length) : (r.add w).workerOf j = r.workerOf j := by
  unfold workerOf add
  rw [List.getD_append _ _ _ _ hj]

theorem workerOf_add_self : (r.add w).workerOf r.worker.length = w := by
  unfold workerOf add
  rw [List.getD_append_right _ _ _ _ (Nat.le_refl _), Nat.sub_self]
  rfl

theorem sound_add (h : r.Sound []) (hrunning : r.terminated = false) (hlooked : r.looked = none)
    {owners : Nat → Nat} {made : Nat} {stop : Nat → Bool} {map : Option Nat} (hmap : map = some w) (hw : w < made)
    (howners : RefCount owners (w :: r.alive.map r.workerOf)) (hnewest : ∀ i ∈ r.alive, r.workerOf i = w)
    (hstopped : ∀ v < made, stop v = true ↔ owners v = 0) :
    (add { r with owners, made, workerStop := stop, workerMap := map } w).Sound [] := by
  let u : Sharing := { r with owners, made, workerStop := stop, workerMap := map }
  have hsame : ∀ j ∈ r.alive, (u.add w).workerOf j = r.workerOf j := fun j hj => workerOf_add (r := u) (h.known j hj)
  have hself : (u.add w).workerOf r.worker.length = w := workerOf_add_self (r := u)
  have hnew : r.worker.length ∉ r.alive := fun hmem => Nat.lt_irrefl _ (h.known _ hmem)
  refine ⟨h.refs.fresh fun hmem => hnew ((h.alive _).mpr hmem), fun j => ?_, List.nodup_cons.mpr ⟨hnew, h.nodup⟩,
    fun j hj => ?_, ?_, fun j hj => ?_, fun a ha => ?_, ?_, hstopped, fun _ found hfound => ?_, fun hterminated => ?_,
    h.refused, h.missed⟩
  · change j ∈ r.worker.length :: r.alive ↔ j ∈ r.worker.length :: r.holders
    rw [List.mem_cons, List.mem_cons, h.alive j]
    rfl
  · change j < (r.worker ++ [w]).length
    rw [List.length_append, List.length_singleton]
    rcases List.mem_cons.mp hj with rfl | hold
    · exact Nat.lt_succ_self _
    · exact Nat.lt_succ_of_lt (h.known j hold)
  · change RefCount owners ((r.worker.length :: r.alive).map (u.add w).workerOf)
    rw [List.map_cons, hself, List.map_congr_left hsame]
    exact howners
  · change map = some ((u.add w).workerOf j)
    rcases List.mem_cons.mp hj with rfl | hold
    · rw [hmap, hself]
    · rw [hmap, hsame j hold, hnewest j hold]
  · exact (hsame _ (h.alive_of_task ha)).trans (h.tasks a ha)
  · rintro v hv
    change v ∈ map at hv
    rw [hmap] at hv
    obtain rfl := Option.some.inj hv
    exact hw
  · change found ∈ r.looked at hfound
    rw [hlooked] at hfound
    cases hfound
  · change r.terminated = true at hterminated
    rw [hrunning] at hterminated
    cases hterminated

/-- The worker of an interface that is in use can be locked. -/
theorem construct_true (h : r.Sound []) (hi : i ∈ r.alive) : r.construct true =
    add { r with owners := Function.update r.owners (r.workerOf i) (r.owners (r.workerOf i) + 1) } (r.workerOf i) := by
  have hpos := (h.unstopped hi).1
  unfold construct
  rw [if_pos rfl]
  split
  · next w hw =>
      obtain rfl : r.workerOf i = w := Option.some.inj ((h.newest i hi).symm.trans hw)
      rw [if_neg (by omega)]
  · next hnone =>
      have hmap := h.newest i hi
      rw [hnone] at hmap
      cases hmap

/-- What the constructor has seen is still so: it gets the worker of the others, or makes the first one. -/
theorem sound_construct {found : Bool} (h : r.Sound []) (hrunning : r.terminated = false) (hlooked : r.looked = none)
    (hfound : found = false ↔ r.alive = []) : (r.construct found).Sound [] := by
  cases found with
  | true =>
      obtain ⟨i, hi⟩ := List.exists_mem_of_ne_nil r.alive fun hnone => absurd (hfound.mpr hnone) (by decide)
      have hmap := h.newest i hi
      rw [construct_true h hi]
      refine sound_add h hrunning hlooked hmap (h.map _ hmap) (h.owners.copy _) (fun j hj => ?_) fun v hv => ?_
      · exact Option.some.inj ((h.newest j hj).symm.trans hmap)
      · rw [Function.update_apply]
        by_cases hsame : v = r.workerOf i
        · rw [if_pos hsame, hsame, (h.unstopped hi).2]
          simp
        · rw [if_neg hsame]
          exact h.stopped v hv
  | false =>
      have hnone := hfound.mp rfl
      have hempty : RefCount r.owners [] := by
        have howners := h.owners
        rw [hnone] at howners
        exact howners
      unfold construct
      rw [if_neg (by decide)]
      refine sound_add h hrunning hlooked rfl (Nat.lt_succ_self _) ?_ (fun j hj => ?_) fun v hv => ?_
      · rw [hnone]
        exact hempty.fresh List.not_mem_nil
      · rw [hnone] at hj
        cases hj
      · rw [Function.update_apply, Function.update_apply]
        by_cases hsame : v = r.made
        · simp [hsame]
        · rw [if_neg hsame, if_neg hsame]
          exact h.stopped v (by omega)

/-! ## Steps and runs -/

variable {r' : Sharing} {e : Event}

theorem sound_of_step (h : r.Sound []) (hstep : r.Step e r') : r'.Sound [] := by
  unfold Step next at hstep
  by_cases hterminated : r.terminated = true
  · rw [if_pos hterminated] at hstep
    cases hstep
  · have hrunning := Bool.eq_false_iff.mpr hterminated
    rw [if_neg hterminated] at hstep
    cases e with
    | look =>
        obtain ⟨hlooked, hsome⟩ := Option.ite_none_right_eq_some.mp hstep
        obtain rfl := Option.some.inj hsome
        refine ⟨h.refs, h.alive, h.nodup, h.known, h.owners, h.newest, h.tasks, h.map, h.stopped,
          fun _ found hfound => ?_, h.terminated, h.refused, h.missed⟩
        obtain rfl : (!r.expired) = found := Option.some.inj hfound
        rw [← h.expired_iff, Bool.not_eq_false']
    | take =>
        obtain ⟨found, hlooked, rfl⟩ := Option.map_eq_some_iff.mp hstep
        exact sound_construct h.unlooked hrunning rfl (h.looked hrunning found hlooked)
    | share i =>
        obtain ⟨⟨-, hi⟩, hsome⟩ := Option.ite_none_right_eq_some.mp hstep
        obtain rfl := Option.some.inj hsome
        have hmem := h.alive_of_handle hi
        exact (h.hold hmem).exchange (.refl _) h.tasks
    | drop i thread =>
        obtain ⟨⟨hfree, hi⟩, hsome⟩ := Option.ite_none_right_eq_some.mp hstep
        obtain rfl := Option.some.inj hsome
        have hmem := h.alive_of_handle hi
        refine sound_release (h.exchange ((List.perm_cons_erase hi).append_right _) h.tasks) ?_
        cases thread with
        | none => exact .inl hfree
        | some w =>
            obtain ⟨a, ha, rfl⟩ := hfree
            have hheld : a ∈ r.tasks ++ r.running := List.mem_append_right _ ha
            have hsame : r.workerOf a.2 = r.workerOf i :=
              Option.some.inj ((h.newest _ (h.alive_of_task hheld)).symm.trans (h.newest i hmem))
            exact .inr (congrArg some ((h.tasks a hheld).symm.trans hsame))
    | post i =>
        obtain ⟨⟨-, hi⟩, hsome⟩ := Option.ite_none_right_eq_some.mp hstep
        obtain rfl := Option.some.inj hsome
        have hmem := h.alive_of_handle hi
        unfold post
        rw [if_neg (by rw [(h.unstopped hmem).2]; decide)]
        refine (h.hold hmem).exchange ?_ fun a ha => ?_
        · -- the closure has the reference that was copied
          simp only [List.map_append, List.map_cons, List.append_assoc, List.cons_append, List.nil_append]
          unfold holders
          rw [List.map_append, ← List.append_assoc, ← List.append_assoc]
          exact List.perm_middle.symm
        · rcases List.mem_append.mp ha with hold | hold
          · rcases List.mem_append.mp hold with hold | hnew
            · exact h.tasks a (List.mem_append_left _ hold)
            · rw [List.mem_singleton.mp hnew]
              rfl
          · exact h.tasks a (List.mem_append_right _ hold)
    | execute w =>
        obtain ⟨-, hsome⟩ := Option.ite_none_left_eq_some.mp hstep
        obtain ⟨a, ha, rfl⟩ := Option.map_eq_some_iff.mp hsome
        have hperm : (r.tasks ++ r.running).Perm (r.tasks.erase a ++ a :: r.running) :=
          ((List.perm_cons_erase (List.mem_of_find?_eq_some ha)).append_right _).trans List.perm_middle.symm
        exact h.exchange ((hperm.map _).append_left _) fun b hb => h.tasks b (hperm.mem_iff.mpr hb)
    | finish w =>
        obtain ⟨a, ha, rfl⟩ := Option.map_eq_some_iff.mp hstep
        have hmem := List.mem_of_find?_eq_some ha
        have hperm : (r.tasks ++ r.running).Perm (a :: (r.tasks ++ r.running.erase a)) :=
          ((List.perm_cons_erase hmem).append_left _).trans List.perm_middle
        refine sound_release (h.exchange (((hperm.map _).append_left _).trans List.perm_middle) fun b hb => ?_) (.inr ?_)
        · exact h.tasks b (hperm.mem_iff.mpr (List.mem_cons_of_mem _ hb))
        · have hw : a.1 = w := by simpa using List.find?_some ha
          exact congrArg some (hw.symm.trans (h.tasks a (List.mem_append_right _ hmem)).symm)

theorem sound_of_run {es : List Event} (hrun : Run Step init es r) : r.Sound [] :=
  hrun.invariant (fun r => r.Sound []) sound_init fun _ _ _ => sound_of_step

/-- What the interfaces can rely on. -/
structure Shared (r : Sharing) : Prop where
  /-- An interface is destroyed with its last reference, -/
  alive : ∀ i, i ∈ r.alive ↔ i ∈ r.holders
  /-- until then its worker is the only one that is not stopped, -/
  one : ∀ i ∈ r.alive, ∀ w < r.made, r.workerStop w = false ↔ w = r.workerOf i
  /-- and with the last interface this one is stopped, too. -/
  last : r.alive = [] → ∀ w < r.made, r.workerStop w = true
  /-- A request that is queued or executed has its interface, whose worker it is on, -/
  tasks : ∀ a ∈ r.tasks ++ r.running, a.2 ∈ r.alive ∧ r.workerOf a.2 = a.1
  /-- and none has been refused; no constructor has been left without a worker. -/
  refused : r.refused = 0
  missed : r.missed = false
  /-- A worker that is destroyed on its own thread has nothing left to do. -/
  terminated : r.terminated = true → r.holders = []

theorem Sound.shared (h : r.Sound []) : r.Shared := by
  have hzero : ∀ {w}, (∀ i ∈ r.alive, r.workerOf i ≠ w) → r.owners w = 0 := by
    intro w hne
    by_contra hpos
    obtain ⟨i, hi, hw⟩ := List.mem_map.mp (h.owners.pos_iff.mp (Nat.pos_of_ne_zero hpos))
    exact hne i hi hw
  refine ⟨h.alive, fun i hi w hw => ?_, fun hnone w hw => ?_, fun a ha => ⟨h.alive_of_task ha, h.tasks a ha⟩, h.refused,
    h.missed, fun hterminated => ?_⟩
  · constructor
    · intro hrunning
      by_contra hne
      have hstopped := (h.stopped w hw).mpr (hzero fun j hj heq => hne ?_)
      · rw [hrunning] at hstopped
        cases hstopped
      · exact heq.symm.trans (Option.some.inj ((h.newest j hj).symm.trans (h.newest i hi)))
    · rintro rfl
      exact (h.unstopped hi).2
  · refine (h.stopped w hw).mpr (hzero fun i hi => ?_)
    rw [hnone] at hi
    cases hi
  · rw [List.eq_nil_iff_forall_not_mem]
    intro i hi
    have hmem := (h.alive i).mpr hi
    rw [h.terminated hterminated] at hmem
    cases hmem

/-- **Sharing.** Whatever the threads do, all interfaces that are in use share the one worker that is not stopped, also
where a constructor meets the end of the last interface (with its destructors, which are one step); every request that is
queued has its interface and its worker, no request is ever refused, and a worker is destroyed only with nothing left to
do. -/
theorem shared_of_run {es : List Event} (hrun : Run Step init es r) : r.Shared := (sound_of_run hrun).shared

def givenUp : List Event := [.look, .take, .look, .take, .post 1, .post 0, .drop 1 none, .execute 0, .finish 0]

/-- The theorem after `givenUp`: the closure had the last reference to the second interface. -/
theorem shared_of_run_givenUp : ∃ r, Run Step init givenUp r ∧ r.alive = [0] ∧ r.tasks = [(0, 0)] ∧ r.Shared := by
  have hfacts : (givenUp.foldlM (fun r e => next r e) init).any (fun r =>
      decide (r.alive = [0]) && decide (r.tasks = [(0, 0)])) = true := by
    decide +kernel
  obtain ⟨r, hr, hstate⟩ := (Option.any_eq_true _ _).mp hfacts
  simp only [Bool.and_eq_true, decide_eq_true_eq] at hstate
  have hrun : Run Step init givenUp r := Run.of_foldlM hr
  exact ⟨r, hrun, hstate.1, hstate.2, shared_of_run hrun⟩

/-- Where the first one is given up, too, its worker is destroyed by the closure, on its own thread. -/
example : ((givenUp ++ [Event.drop 0 none, Event.execute 0, Event.finish 0]).foldlM (fun r e => next r e) init).any
    (fun r : Sharing => r.terminated) = true := by
  decide +kernel

/-! ## Handles that are kept -/

def Event.isDrop : Event → Bool
  | drop .. => true
  | look | take | share _ | post _ | execute _ | finish _ => false

/-- Every interface has a handle, and there is one worker, or no interface. -/
structure Single (r : Sharing) : Prop where
  handles : ∀ i < r.worker.length, i ∈ r.handles
  made : r.made = min 1 r.worker.length
  terminated : r.terminated = false

theorem single_init : init.Single := ⟨nofun, rfl, rfl⟩

theorem release_of_held {thread : Option Nat} (h : RefCount r.refs (i :: r.holders)) (hi : i ∈ r.holders) :
    r.release i thread = { r with refs := Function.update r.refs i (r.refs i - 1) } := by
  unfold release
  rw [if_neg fun hlast => absurd hi (h.last_iff.mp hlast)]

/-- The worker has executed a request of an interface that has a handle, and destroys the closure. -/
theorem release_finish (h : r.Sound []) (hs : r.Single) {a : Nat × Nat} (ha : a ∈ r.running) (thread : Option Nat) :
    release { r with running := r.running.erase a } a.2 thread =
      { r with running := r.running.erase a, refs := Function.update r.refs a.2 (r.refs a.2 - 1) } := by
  have hperm : (r.tasks ++ r.running).Perm (a :: (r.tasks ++ r.running.erase a)) :=
    ((List.perm_cons_erase ha).append_left _).trans List.perm_middle
  have hhandle : a.2 ∈ r.handles := hs.handles _ (h.known _ (h.alive_of_task (List.mem_append_right _ ha)))
  refine release_of_held (r := { r with running := r.running.erase a }) ?_ (List.mem_append_left _ hhandle)
  exact h.refs.perm (((hperm.map _).append_left _).trans List.perm_middle)

theorem Single.add (hs : r.Single) {owners : Nat → Nat} {stop : Nat → Bool} {map : Option Nat} {made : Nat}
    (hmade : made = 1) : (add { r with owners, made, workerStop := stop, workerMap := map } w).Single := by
  refine ⟨fun i hi => ?_, ?_, hs.terminated⟩
  · change i < (r.worker ++ [w]).length at hi
    rw [List.length_append, List.length_singleton] at hi
    rcases Nat.lt_succ_iff_lt_or_eq.mp hi with hold | rfl
    · exact List.mem_cons_of_mem _ (hs.handles i hold)
    · exact List.mem_cons_self
  · change made = min 1 (r.worker ++ [w]).length
    rw [List.length_append, List.length_singleton]
    omega

theorem single_of_step (h : r.Sound []) (hs : r.Single) (hkept : e.isDrop = false) (hstep : r.Step e r') : r'.Single := by
  unfold Step next at hstep
  rw [if_neg (by rw [hs.terminated]; decide)] at hstep
  have hmade := hs.made
  cases e with
  | look =>
      obtain ⟨-, hsome⟩ := Option.ite_none_right_eq_some.mp hstep
      obtain rfl := Option.some.inj hsome
      exact ⟨hs.handles, hs.made, hs.terminated⟩
  | take =>
      obtain ⟨found, hlooked, rfl⟩ := Option.map_eq_some_iff.mp hstep
      have hfound := h.looked hs.terminated found hlooked
      have hs' : ({ r with looked := none } : Sharing).Single := ⟨hs.handles, hs.made, hs.terminated⟩
      cases found with
      | true =>
          obtain ⟨i, hi⟩ := List.exists_mem_of_ne_nil r.alive fun hnone => absurd (hfound.mpr hnone) (by decide)
          have hpos := h.known i hi
          rw [construct_true h.unlooked hi]
          exact hs'.add (by change r.made = 1; omega)
      | false =>
          have hempty : r.worker.length = 0 := by
            by_contra hpos
            have hmem := h.alive_of_handle (hs.handles 0 (Nat.pos_of_ne_zero hpos))
            rw [hfound.mp rfl] at hmem
            cases hmem
          exact hs'.add (by change r.made + 1 = 1; omega)
  | share i =>
      obtain ⟨-, hsome⟩ := Option.ite_none_right_eq_some.mp hstep
      obtain rfl := Option.some.inj hsome
      exact ⟨fun j hj => List.mem_cons_of_mem _ (hs.handles j hj), hs.made, hs.terminated⟩
  | drop => cases hkept
  | post i =>
      obtain ⟨-, hsome⟩ := Option.ite_none_right_eq_some.mp hstep
      obtain rfl := Option.some.inj hsome
      unfold post
      split
      · exact ⟨hs.handles, hs.made, hs.terminated⟩
      · exact ⟨hs.handles, hs.made, hs.terminated⟩
  | execute w =>
      obtain ⟨-, hsome⟩ := Option.ite_none_left_eq_some.mp hstep
      obtain ⟨a, -, rfl⟩ := Option.map_eq_some_iff.mp hsome
      exact ⟨hs.handles, hs.made, hs.terminated⟩
  | finish w =>
      obtain ⟨a, ha, rfl⟩ := Option.map_eq_some_iff.mp hstep
      rw [release_finish h hs (List.mem_of_find?_eq_some ha) (some w)]
      exact ⟨hs.handles, hs.made, hs.terminated⟩

def Keeps (_ : Sharing) (e : Event) : Prop := e.isDrop = false

theorem single_of_run {es : List Event} (hrun : Run (guarded Keeps Step) init es r) : r.Sound [] ∧ r.Single :=
  hrun.guarded_invariant (fun r : Sharing => r.Sound [] ∧ r.Single) ⟨sound_init, single_init⟩
    fun r e _ hs (hkept : r.Keeps e) hstep => ⟨sound_of_step hs.1 hstep, single_of_step hs.1 hs.2 hkept hstep⟩

theorem run_snoc {es : List Event} (hrun : Run (guarded Keeps Step) init es r) (hkept : e.isDrop = false)
    (hstep : r.Step e r') : Run (guarded Keeps Step) init (es ++ [e]) r' :=
  hrun.snoc ⟨hkept, hstep⟩

/-- A run that keeps all handles leads to so many interfaces, with these requests in the queue and no other. -/
def Serves (n : Nat) (queue : List Nat) : Prop :=
  ∃ es r, Run (guarded Keeps Step) init es r ∧ r.looked = none ∧ r.running = [] ∧ r.worker.length = n ∧
    r.tasks.map Prod.snd = queue

theorem Serves.construct {n : Nat} {queue : List Nat} (h : Serves n queue) : Serves (n + 1) queue := by
  obtain ⟨es, r, hrun, hlooked, hrunning, hlength, htasks⟩ := h
  obtain ⟨hsound, hsingle⟩ := single_of_run hrun
  have hlook : r.Step .look { r with looked := some !r.expired } := by
    unfold Step next
    rw [if_neg (by rw [hsingle.terminated]; decide)]
    exact if_pos hlooked
  have htake : ({ r with looked := some !r.expired } : Sharing).Step .take
      (Sharing.construct { r with looked := none } !r.expired) := by
    unfold Step next
    rw [if_neg (by change ¬ r.terminated = true; rw [hsingle.terminated]; decide)]
    rfl
  refine ⟨es ++ [.look] ++ [.take], _, run_snoc (run_snoc hrun rfl hlook) rfl htake, ?_⟩
  have hadd : ∀ (u : Sharing) (w : Nat), u.looked = none → u.running = r.running → u.worker = r.worker →
      u.tasks = r.tasks → (u.add w).looked = none ∧ (u.add w).running = [] ∧ (u.add w).worker.length = n + 1 ∧
        (u.add w).tasks.map Prod.snd = queue := by
    intro u w hulooked hurunning huworker hutasks
    refine ⟨hulooked, hurunning.trans hrunning, ?_, (congrArg _ hutasks).trans htasks⟩
    change (u.worker ++ [w]).length = n + 1
    rw [huworker, List.length_append, List.length_singleton, hlength]
  cases hexpired : r.expired with
  | true => exact hadd _ _ rfl rfl rfl rfl
  | false =>
      obtain ⟨i, hi⟩ := List.exists_mem_of_ne_nil r.alive fun hnone => by
        rw [hsound.expired_iff.mpr hnone] at hexpired
        cases hexpired
      rw [Bool.not_false, construct_true hsound.unlooked hi]
      exact hadd _ _ rfl rfl rfl rfl

theorem Serves.post {n : Nat} {queue : List Nat} {i : Nat} (h : Serves n queue) (hi : i < n) :
    Serves n (queue ++ [i]) := by
  obtain ⟨es, r, hrun, hlooked, hrunning, rfl, rfl⟩ := h
  obtain ⟨hsound, hsingle⟩ := single_of_run hrun
  have hhandle := hsingle.handles i hi
  have hpost : r.Step (.post i) (r.post i) := by
    unfold Step next
    rw [if_neg (by rw [hsingle.terminated]; decide)]
    exact if_pos ⟨hlooked, hhandle⟩
  have heq : r.post i = { r with
      refs := Function.update r.refs i (r.refs i + 1), tasks := r.tasks ++ [(r.workerOf i, i)] } :=
    if_neg (by rw [(hsound.unstopped (hsound.alive_of_handle hhandle)).2]; decide)
  rw [heq] at hpost
  have hrun' := run_snoc hrun rfl hpost
  refine ⟨_, _, hrun', hlooked, hrunning, rfl, ?_⟩
  rw [List.map_append]
  rfl

theorem Serves.serve {n : Nat} {queue : List Nat} {i : Nat} (h : Serves n (i :: queue)) : Serves n queue := by
  obtain ⟨es, r, hrun, hlooked, hrunning, rfl, hqueue⟩ := h
  obtain ⟨hsound, hsingle⟩ := single_of_run hrun
  obtain ⟨a, rest, htasks, rfl, rfl⟩ := List.map_eq_cons_iff.mp hqueue
  let u : Sharing := { r with tasks := rest, running := [a] }
  have hexecute : r.Step (.execute a.1) u := by
    unfold Step next
    rw [if_neg (by rw [hsingle.terminated]; decide)]
    dsimp only
    rw [hrunning, if_neg (by simp), htasks, List.find?_cons_of_pos (by simp), Option.map_some, List.erase_cons_head]
  have hrun' := run_snoc hrun rfl hexecute
  obtain ⟨hsound', hsingle'⟩ := single_of_run hrun'
  have hfinish : u.Step (.finish a.1) { u with
      running := u.running.erase a, refs := Function.update u.refs a.2 (u.refs a.2 - 1) } := by
    have hmem : a ∈ u.running := List.mem_singleton_self a
    have hrelease := release_finish hsound' hsingle' hmem (some a.1)
    unfold Step next
    rw [if_neg (by rw [hsingle'.terminated]; decide), ← hrelease]
    change (u.running.find? (·.1 = a.1)).map _ = _
    rw [show u.running.find? (·.1 = a.1) = some a from List.find?_cons_of_pos (by simp), Option.map_some]
  exact ⟨_, _, run_snoc hrun' rfl hfinish, hlooked, List.erase_cons_head a [], rfl, rfl⟩

theorem Serves.posts {n : Nat} {queue new : List Nat} (h : Serves n queue) (hnew : ∀ i ∈ new, i < n) :
    Serves n (queue ++ new) := by
  induction new generalizing queue with
  | nil =>
      rw [List.append_nil]
      exact h
  | cons i new ih =>
      have hposted := h.post (hnew i List.mem_cons_self)
      have hall := ih hposted fun j hj => hnew j (List.mem_cons_of_mem _ hj)
      rwa [List.append_assoc] at hall

end Sharing
end NvmeManager
