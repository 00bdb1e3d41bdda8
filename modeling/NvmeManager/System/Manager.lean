import NvmeManager.Main.Endpoints
import NvmeManager.System.Member

/-!
# All drives of the process

The drives share the queue of one worker and the queue of the main loop; they are added by `handleMCTPEndpoints`, and
updated and initialized by `handleEmEndpoints`.

* `Member` : a drive without requests of its own; `Manager` : the drives, the map and the two queues;
* `Manager.settle` : what a function of a drive has submitted is moved to the queues; `Manager.next` : what one event does;
* `Manager.view` : a drive with what the queues hold for it; `view_settle_self`, `view_foldl_settle` : what a drive becomes;
* `Manager.Formed` : the map has one entry for each drive, and the queues belong to drives;
* `Manager.process_of_step` : what a step of the manager is to each drive, a run of `Process`; `life_of_run` : every drive,
  at every moment, is in a state that a run of `Process` leads to.
-/

namespace NvmeManager

/-- What the constructor of a drive finds: the properties that its interfaces start with, what was in its memory, and the
timeout of its endpoint, unless this cannot be opened. -/
structure Construction where
  props : NvmeInterfaces
  u : Uninitialised
  timeout : Option Nat

/-- A drive whose requests and callbacks are in the queues that it shares. -/
structure Member where
  drive : NVMeDevice
  worker : drive.intf.worker = []
  io : drive.intf.io = []

def NVMeDevice.settled (d : NVMeDevice) : Member := ⟨d.drained, rfl, rfl⟩

def Construction.create (k : Construction) (cfg : Config) (args : DriveArgs) : NVMeDevice :=
  .create cfg k.props k.u args.eid args.bus args.path k.timeout

structure Manager where
  drives : Drives
  /-- The drives, at the places that `driveMap` has for them. -/
  members : List Member
  /-- The queue of the worker, oldest first, with the place of the drive of each request. -/
  workerIO : List (Nat × Command)
  /-- The callbacks in the queue of the loop, oldest first. -/
  io : List (Nat × Pending)
  /-- A handler has divided by zero, or an exception has left a destructor. -/
  aborted : Bool

namespace Manager
variable (cfg : Config)

def init : Manager := ⟨.empty, [], [], [], false⟩

/-- What can happen next. -/
inductive Event
  /-- `handleMCTPEndpoints` is called; `made` is what the constructor of each new drive finds. -/
  | endpoints (mctpEndpoints : ManagedObjectType) (made : Nat → Construction)
  /-- `handleEmEndpoints` is called; the loops over the unordered map visit the drives in some order. -/
  | inventory (objData : ManagedObjectType) (order : List Nat)
  | writeFault (i : Nat) (f : Fault) (value : Bool)
  | erase (i : Nat) (overwritePasses : UInt16) (type : EraseMethod)
  | expire (i : Nat)
  | tick (i : Nat)
  /-- The worker executes the oldest request. -/
  | execute (lib : Libnvme) (errno : Int)
  /-- The oldest callback is run. -/
  | deliver

variable (m : Manager)

/-- A function of a drive has run: its requests and callbacks go to the ends of the queues. -/
def settle (i : Nat) (d : NVMeDevice) : Manager :=
  { m with
    members := m.members.set i d.settled
    workerIO := m.workerIO ++ tagged i d.intf.worker
    io := m.io ++ tagged i d.intf.io }

def construct (s : Drives) (made : Nat → Construction) : Manager :=
  { m with
    drives := s
    members := m.members ++ ((s.created.drop m.members.length).zipIdx m.members.length).map fun a =>
      ((made a.2).create cfg a.1).settled }

/-- An event of one drive that takes nothing from a queue. -/
def runDrive (i : Nat) (e : NvmeManager.Event) : Option Manager :=
  m.members[i]?.bind fun a => (Process.next cfg ⟨a.drive, false⟩ e).map fun p => m.settle i p.drive

def visited (order : List Nat) : List NVMeDevice := order.filterMap fun i => m.members[i]?.map Member.drive

def next (e : Event) : Option Manager :=
  if m.aborted then none
  else
    match e with
    | .endpoints mctpEndpoints made =>
      match handleMCTPEndpoints cfg m.drives mctpEndpoints with
      | none => some { m with aborted := true }
      | some s => some (m.construct cfg s made)
    | .inventory objData order =>
      if order.Perm (m.drives.driveMap.map Prod.snd) then
        match handleEmEndpoints cfg objData (m.visited order) with
        | none => some { m with aborted := true }
        | some ds => some ((order.zip ds).foldl (fun m a => m.settle a.1 a.2) m)
      else none
    | .writeFault i f value => m.runDrive cfg i (.writeFault f value)
    | .erase i passes type => m.runDrive cfg i (.erase passes type)
    | .expire i => m.runDrive cfg i .expire
    | .tick i => m.runDrive cfg i .tick
    | .execute lib errno =>
      match m.workerIO with
      | [] => none
      | (i, c) :: rest =>
        m.members[i]?.bind fun a =>
          (NVMeMi.execute cfg { a.drive.intf with worker := [c] } lib errno).map fun mi =>
            { m with workerIO := rest }.settle i { a.drive with intf := mi }
    | .deliver =>
      match m.io with
      | [] => none
      | (i, q) :: rest =>
        m.members[i]?.map fun a =>
          match a.drive.handle cfg q.command q.reply with
          | none => { m with io := rest, aborted := true }
          | some d => { m with io := rest }.settle i d

def Step (m : Manager) (e : Event) (m' : Manager) : Prop := m.next cfg e = some m'

/-- A drive with what the queues hold for it. -/
def view (i : Nat) : Option NVMeDevice :=
  m.members[i]?.map fun a => a.drive.behind (ofTag i m.workerIO) (ofTag i m.io)

/-! ## What a drive becomes -/

section
variable {m} {i j : Nat} {d : NVMeDevice} {a : Member}

theorem view_settle_self (ha : m.members[i]? = some a) :
    (m.settle i d).view i = some (d.behind (ofTag i m.workerIO) (ofTag i m.io)) := by
  obtain ⟨hi, -⟩ := List.getElem?_eq_some_iff.mp ha
  simp [view, settle, hi, NVMeDevice.settled, NVMeDevice.behind_drained]

theorem view_settle_ne (h : j ≠ i) : (m.settle j d).view i = m.view i := by
  simp [view, settle, h, ofTag_tagged_ne]

@[simp] theorem length_settle : (m.settle i d).members.length = m.members.length := by simp [settle]

@[simp] theorem drives_settle : (m.settle i d).drives = m.drives := rfl

@[simp] theorem aborted_settle : (m.settle i d).aborted = m.aborted := rfl

theorem view_foldl_settle_ne {l : List (Nat × NVMeDevice)} (h : i ∉ l.map Prod.fst) :
    (l.foldl (fun m a => m.settle a.1 a.2) m).view i = m.view i := by
  induction l generalizing m with
  | nil => rfl
  | cons b l ih =>
      obtain ⟨hne, hnot⟩ := not_or.mp (mt List.mem_cons.mpr h)
      rw [List.foldl_cons, ih hnot, view_settle_ne (Ne.symm hne)]

/-- Drives are settled one after the other, each once. Only the older requests and callbacks are before its own. -/
theorem view_foldl_settle {l : List (Nat × NVMeDevice)} (hnodup : (l.map Prod.fst).Nodup)
    (ha : m.members[i]? = some a) (hmem : (i, d) ∈ l) : (l.foldl (fun m a => m.settle a.1 a.2) m).view i =
      some (d.behind (ofTag i m.workerIO) (ofTag i m.io)) := by
  induction l generalizing m a with
  | nil => cases hmem
  | cons b l ih =>
      obtain ⟨hnot, hnodup⟩ := List.nodup_cons.mp hnodup
      rw [List.foldl_cons]
      rcases List.mem_cons.mp hmem with rfl | hmem
      · rw [view_foldl_settle_ne hnot, view_settle_self ha]
      · have hne : b.1 ≠ i := by
          rintro rfl
          exact hnot (List.mem_map.mpr ⟨_, hmem, rfl⟩)
        have ha' : (m.settle b.1 b.2).members[i]? = some a := by simp [settle, hne, ha]
        rw [ih hnodup ha' hmem]
        simp [settle, ofTag_tagged_ne hne]

end

/-! ## What each event does -/

/-- The drive that an event is about, and what it is to the drive. -/
def Event.ofDrive : Event → Option (Nat × NvmeManager.Event)
  | writeFault i f value => some (i, .writeFault f value)
  | erase i passes type => some (i, .erase passes type)
  | expire i => some (i, .expire)
  | tick i => some (i, .tick)
  | endpoints .. | inventory .. | execute .. | deliver => none

/-- The drives after a round of the inventory that reaches them with the values `vs`. -/
def round (vs : List EmVars) (order : List Nat) : Manager :=
  (order.zip ((m.visited order).map fun d => (d.visitAll vs).initializeDrive cfg)).foldl
    (fun m a => m.settle a.1 a.2) m

/-- What each event does. -/
inductive Turn (m : Manager) : Event → Manager → Prop
  | added {mctpEndpoints : ManagedObjectType} {made : Nat → Construction} {s : Drives} :
      handleMCTPEndpoints cfg m.drives mctpEndpoints = some s →
        Turn m (.endpoints mctpEndpoints made) (m.construct cfg s made)
  | initialized {objData : ManagedObjectType} {order : List Nat} {last : EmVars} {vs : List EmVars} :
      order.Perm (m.drives.driveMap.map Prod.snd) → emTrace .init objData.entries = some (last, vs) →
        Turn m (.inventory objData order) (m.round cfg vs order)
  | endpointsThrown {mctpEndpoints : ManagedObjectType} {made : Nat → Construction} :
      handleMCTPEndpoints cfg m.drives mctpEndpoints = none →
        Turn m (.endpoints mctpEndpoints made) { m with aborted := true }
  | inventoryThrown {objData : ManagedObjectType} {order : List Nat} :
      emTrace .init objData.entries = none → Turn m (.inventory objData order) { m with aborted := true }
  | drive {e : Event} {i : Nat} {e' : NvmeManager.Event} {a : Member} {p : Process} :
      e.ofDrive = some (i, e') → m.members[i]? = some a → Process.Step cfg ⟨a.drive, false⟩ e' p →
        Turn m e (m.settle i p.drive)
  | execute {lib : Libnvme} {errno : Int} {i : Nat} {c : Command} {rest : List (Nat × Command)} {a : Member} {mi : NVMeMi} :
      m.workerIO = (i, c) :: rest → m.members[i]? = some a →
        NVMeMi.execute cfg { a.drive.intf with worker := [c] } lib errno = some mi →
        Turn m (.execute lib errno) ({ m with workerIO := rest }.settle i { a.drive with intf := mi })
  | deliver {i : Nat} {q : Pending} {rest : List (Nat × Pending)} {a : Member} {d : NVMeDevice} :
      m.io = (i, q) :: rest → m.members[i]? = some a → a.drive.handle cfg q.command q.reply = some d →
        Turn m .deliver ({ m with io := rest }.settle i d)
  | divided {i : Nat} {q : Pending} {rest : List (Nat × Pending)} {a : Member} :
      m.io = (i, q) :: rest → m.members[i]? = some a → a.drive.handle cfg q.command q.reply = none →
        Turn m .deliver { m with io := rest, aborted := true }

variable {cfg} {m} {m' : Manager} {e : Event}

theorem turn_of_runDrive {i : Nat} {e' : NvmeManager.Event} (he : e.ofDrive = some (i, e'))
    (h : m.runDrive cfg i e' = some m') : Turn cfg m e m' := by
  obtain ⟨a, ha, h⟩ := Option.bind_eq_some_iff.mp h
  obtain ⟨p, hp, rfl⟩ := Option.map_eq_some_iff.mp h
  exact .drive he ha hp

theorem turn_of_step (h : m.Step cfg e m') : m.aborted = false ∧ Turn cfg m e m' := by
  unfold Step next at h
  by_cases haborted : m.aborted = true
  · rw [if_pos haborted] at h
    cases h
  · rw [if_neg haborted] at h
    refine ⟨Bool.eq_false_iff.mpr haborted, ?_⟩
    cases e with
    | endpoints mctpEndpoints made =>
        dsimp only at h
        cases hs : handleMCTPEndpoints cfg m.drives mctpEndpoints with
        | none =>
            rw [hs] at h
            obtain rfl := Option.some.inj h
            exact .endpointsThrown hs
        | some s =>
            rw [hs] at h
            obtain rfl := Option.some.inj h
            exact .added hs
    | inventory objData order =>
        dsimp only at h
        by_cases horder : order.Perm (m.drives.driveMap.map Prod.snd)
        · rw [if_pos horder, handleEmEndpoints_eq] at h
          cases htrace : emTrace .init objData.entries with
          | none =>
              rw [htrace] at h
              obtain rfl := Option.some.inj h
              exact .inventoryThrown htrace
          | some t =>
              rw [htrace] at h
              obtain rfl := Option.some.inj h
              exact .initialized horder htrace
        · rw [if_neg horder] at h
          cases h
    | writeFault i f value => exact turn_of_runDrive rfl h
    | erase i passes type => exact turn_of_runDrive rfl h
    | expire i => exact turn_of_runDrive rfl h
    | tick i => exact turn_of_runDrive rfl h
    | execute lib errno =>
        dsimp only at h
        cases hworker : m.workerIO with
        | nil =>
            rw [hworker] at h
            cases h
        | cons head rest =>
            obtain ⟨i, c⟩ := head
            rw [hworker] at h
            obtain ⟨a, ha, h⟩ := Option.bind_eq_some_iff.mp h
            obtain ⟨mi, hmi, rfl⟩ := Option.map_eq_some_iff.mp h
            exact .execute hworker ha hmi
    | deliver =>
        dsimp only at h
        cases hio : m.io with
        | nil =>
            rw [hio] at h
            cases h
        | cons head rest =>
            obtain ⟨i, q⟩ := head
            rw [hio] at h
            obtain ⟨a, ha, h⟩ := Option.map_eq_some_iff.mp h
            cases hhandle : a.drive.handle cfg q.command q.reply with
            | none =>
                rw [hhandle] at h
                obtain rfl := h
                exact .divided hio ha hhandle
            | some d =>
                rw [hhandle] at h
                obtain rfl := h
                exact .deliver hio ha hhandle

/-! ## The map and the queues -/

theorem indexed_handle {s s' : Drives} {mctpEndpoints : ManagedObjectType} (hs : s.Indexed)
    (h : handleMCTPEndpoints cfg s mctpEndpoints = some s') : s'.Indexed ∧ s.created <+: s'.created := by
  refine (Run.of_foldlM h).invariant (fun t => t.Indexed ∧ s.created <+: t.created) ⟨hs, List.prefix_rfl⟩ ?_
  rintro t object t' ⟨hindexed, hprefix⟩ hstep
  unfold endpointStep at hstep
  split at hstep
  · next args _ =>
      obtain rfl := Option.some.inj hstep
      refine ⟨indexed_add hindexed args, hprefix.trans ?_⟩
      rw [created_add hindexed]
      exact prefix_keep
  · obtain rfl := Option.some.inj hstep
    exact ⟨hindexed, hprefix⟩
  · cases hstep

/-- The map has one entry for each drive, and the queues belong to drives. -/
structure Formed (m : Manager) : Prop where
  indexed : m.drives.Indexed
  length : m.members.length = m.drives.created.length
  workerIO : ∀ item ∈ m.workerIO, item.1 < m.members.length
  io : ∀ item ∈ m.io, item.1 < m.members.length

theorem formed_init : init.Formed := ⟨rfl, rfl, nofun, nofun⟩

theorem Formed.of_subset (hf : m.Formed) {requests : List (Nat × Command)} {io : List (Nat × Pending)}
    (hworker : requests ⊆ m.workerIO) (hio : io ⊆ m.io) (aborted : Bool) :
    ({ m with workerIO := requests, io, aborted } : Manager).Formed :=
  ⟨hf.indexed, hf.length, fun item hitem => hf.workerIO item (hworker hitem), fun item hitem => hf.io item (hio hitem)⟩

theorem Formed.settle (hf : m.Formed) {i : Nat} (hi : i < m.members.length) (d : NVMeDevice) :
    (m.settle i d).Formed := by
  have htagged : ∀ {α : Type} (items : List α), ∀ item ∈ tagged i items, item.1 = i := by
    intro α items item hitem
    obtain ⟨a, -, rfl⟩ := List.mem_map.mp hitem
    rfl
  refine ⟨hf.indexed, ?_, ?_, ?_⟩
  · rw [length_settle]
    exact hf.length
  · intro item hitem
    rw [length_settle]
    rcases List.mem_append.mp hitem with hitem | hitem
    · exact hf.workerIO item hitem
    · rw [htagged _ item hitem]
      exact hi
  · intro item hitem
    rw [length_settle]
    rcases List.mem_append.mp hitem with hitem | hitem
    · exact hf.io item hitem
    · rw [htagged _ item hitem]
      exact hi

theorem Formed.foldl_settle (hf : m.Formed) {l : List (Nat × NVMeDevice)} (hl : ∀ a ∈ l, a.1 < m.members.length) :
    (l.foldl (fun m a => m.settle a.1 a.2) m).Formed := by
  induction l generalizing m with
  | nil => exact hf
  | cons a l ih =>
      refine ih (hf.settle (hl a List.mem_cons_self) a.2) fun b hb => ?_
      rw [length_settle]
      exact hl b (List.mem_cons_of_mem _ hb)

theorem Formed.order (hf : m.Formed) {order : List Nat} (h : order.Perm (m.drives.driveMap.map Prod.snd)) :
    order.Nodup ∧ ∀ i, i ∈ order ↔ i < m.members.length := by
  rw [hf.indexed.places, ← hf.length] at h
  exact ⟨h.nodup_iff.mpr List.nodup_range, fun i => by rw [h.mem_iff, List.mem_range]⟩

theorem zip_visited {order : List Nat} (h : ∀ i ∈ order, i < m.members.length) (f : NVMeDevice → NVMeDevice) :
    (order.zip ((m.visited order).map f)).map Prod.fst = order ∧
      ∀ i a, i ∈ order → m.members[i]? = some a → (i, f a.drive) ∈ order.zip ((m.visited order).map f) := by
  induction order with
  | nil => exact ⟨rfl, fun _ _ hi => absurd hi List.not_mem_nil⟩
  | cons j order ih =>
      obtain ⟨hfst, hmem⟩ := ih fun i hi => h i (List.mem_cons_of_mem _ hi)
      obtain ⟨b, hb⟩ : ∃ b, m.members[j]? = some b := ⟨_, List.getElem?_eq_getElem (h j List.mem_cons_self)⟩
      have hcons : m.visited (j :: order) = b.drive :: m.visited order := by
        unfold visited
        rw [List.filterMap_cons, hb]
        rfl
      rw [hcons, List.map_cons, List.zip_cons_cons, List.map_cons, hfst]
      refine ⟨rfl, fun i a hi ha => ?_⟩
      rcases List.mem_cons.mp hi with rfl | hi
      · rw [hb] at ha
        obtain rfl := Option.some.inj ha
        exact List.mem_cons_self
      · exact List.mem_cons_of_mem _ (hmem i a hi ha)

theorem Formed.round (hf : m.Formed) {order : List Nat} (h : order.Perm (m.drives.driveMap.map Prod.snd))
    (vs : List EmVars) : (m.round cfg vs order).Formed := by
  have hlt : ∀ i ∈ order, i < m.members.length := fun i hi => ((hf.order h).2 i).mp hi
  refine hf.foldl_settle fun a ha => hlt a.1 ?_
  rw [← (zip_visited hlt fun d => (d.visitAll vs).initializeDrive cfg).1]
  exact List.mem_map_of_mem ha

theorem Formed.construct (hf : m.Formed) {s : Drives} (hs : s.Indexed) (hgrown : m.drives.created <+: s.created)
    (made : Nat → Construction) : (m.construct cfg s made).Formed := by
  have hlength : (m.construct cfg s made).members.length = s.created.length := by
    have hle := hgrown.length_le
    rw [← hf.length] at hle
    simp [Manager.construct]
    omega
  have hle : m.members.length ≤ (m.construct cfg s made).members.length := by
    simp [Manager.construct]
  exact ⟨hs, hlength, fun item h => Nat.lt_of_lt_of_le (hf.workerIO item h) hle,
    fun item h => Nat.lt_of_lt_of_le (hf.io item h) hle⟩

theorem formed_of_step (hf : m.Formed) (h : m.Step cfg e m') : m'.Formed := by
  cases (turn_of_step h).2 with
  | added hs =>
      obtain ⟨hindexed, hprefix⟩ := indexed_handle hf.indexed hs
      exact hf.construct hindexed hprefix _
  | initialized horder htrace => exact hf.round horder _
  | endpointsThrown | inventoryThrown =>
      exact hf.of_subset (List.Subset.refl m.workerIO) (List.Subset.refl m.io) true
  | drive he ha hp => exact hf.settle (List.getElem?_eq_some_iff.mp ha).1 _
  | execute hworker ha hmi =>
      have hrest := hf.of_subset (hworker ▸ List.subset_cons_self _ _) (List.Subset.refl m.io) m.aborted
      exact hrest.settle (List.getElem?_eq_some_iff.mp ha).1 _
  | deliver hio ha hd =>
      have hrest := hf.of_subset (List.Subset.refl m.workerIO) (hio ▸ List.subset_cons_self _ _) m.aborted
      exact hrest.settle (List.getElem?_eq_some_iff.mp ha).1 _
  | divided hio ha hd => exact hf.of_subset (List.Subset.refl m.workerIO) (hio ▸ List.subset_cons_self _ _) true

/-! ## Each drive -/

/-- The events of a drive in a round of the inventory. -/
def roundEvents (vs : List EmVars) (d : NVMeDevice) : List NvmeManager.Event :=
  ((vs.filter fun vars => d.bus.toUInt64 = vars.bus).map fun vars => .inventory vars.form vars.driveAssoc) ++
    [.initializeDrive]

/-- An initialization by `handleEmEndpoints`. -/
def isInitialize : NvmeManager.Event → Bool
  | .initializeDrive => true
  | .inventory .. | .writeFault .. | .erase .. | .expire | .tick | .execute .. | .deliver => false

/-- The events of a drive that a client or its own timer brings about. -/
def isOwn : NvmeManager.Event → Bool
  | .writeFault .. | .erase .. | .expire | .tick => true
  | .initializeDrive | .inventory .. | .execute .. | .deliver => false

/-- The event of this drive that an event brings about. -/
def Event.own (e : Event) (i : Nat) : List NvmeManager.Event := ofTag i e.ofDrive.toList

theorem filter_roundEvents (vs : List EmVars) (d : NVMeDevice) : (roundEvents vs d).filter isOwn = [] := by
  simp [roundEvents, List.filter_map, Function.comp_def, isOwn]

theorem countP_roundEvents (vs : List EmVars) (d : NVMeDevice) : (roundEvents vs d).countP isInitialize = 1 := by
  simp [roundEvents, List.countP_map, Function.comp_def, isInitialize]

theorem run_visitAll (vs : List EmVars) (d : NVMeDevice) : Run (Process.Step cfg) ⟨d, false⟩
    ((vs.filter fun vars => d.bus.toUInt64 = vars.bus).map fun vars => .inventory vars.form vars.driveAssoc)
    ⟨d.visitAll vs, false⟩ := by
  induction vs using List.reverseRecOn with
  | nil => exact .nil
  | append_singleton vs vars ih =>
      have hvisit : d.visitAll (vs ++ [vars]) = (d.visitAll vs).visit vars := by simp [NVMeDevice.visitAll]
      rw [hvisit, List.filter_append, List.map_append]
      by_cases hbus : d.bus.toUInt64 = vars.bus
      · have hreach : (d.visitAll vs).visit vars = (d.visitAll vs).inventory vars.form vars.driveAssoc := by
          unfold NVMeDevice.visit
          rw [NVMeDevice.bus_visitAll, if_neg (not_not_intro hbus)]
        rw [List.filter_cons_of_pos (by simpa using hbus), List.filter_nil, hreach]
        exact ih.snoc rfl
      · have hpass : (d.visitAll vs).visit vars = d.visitAll vs := by
          unfold NVMeDevice.visit
          rw [NVMeDevice.bus_visitAll, if_pos hbus]
        rw [List.filter_cons_of_neg (by simpa using hbus), List.filter_nil, List.map_nil, List.append_nil, hpass]
        exact ih

theorem run_round (vs : List EmVars) (d : NVMeDevice) :
    Run (Process.Step cfg) ⟨d, false⟩ (roundEvents vs d) ⟨(d.visitAll vs).initializeDrive cfg, false⟩ :=
  (run_visitAll vs d).snoc rfl

theorem visitAll_behind (vs : List EmVars) (d : NVMeDevice) (worker : List Command) (io : List Pending) :
    (d.behind worker io).visitAll vs = (d.visitAll vs).behind worker io := by
  induction vs generalizing d with
  | nil => rfl
  | cons vars vs ih =>
      have hvisit : (d.behind worker io).visit vars = (d.visit vars).behind worker io := by
        unfold NVMeDevice.visit
        by_cases hbus : d.bus.toUInt64 = vars.bus
        · rw [if_neg (not_not_intro hbus), if_neg (not_not_intro (show (d.behind worker io).bus.toUInt64 = vars.bus from hbus))]
          exact NVMeDevice.inventory_behind _ _
        · rw [if_pos hbus, if_pos (show (d.behind worker io).bus.toUInt64 ≠ vars.bus from hbus)]
      change ((d.behind worker io).visit vars).visitAll vs = ((d.visit vars).visitAll vs).behind worker io
      rw [hvisit]
      exact ih (d.visit vars)

/-- The events of a round of the inventory that comes to its end. -/
def rounds (e : Event) (m' : Manager) : Nat :=
  match e with
  | .inventory .. => if m'.aborted then 0 else 1
  | .endpoints .. | .writeFault .. | .erase .. | .expire .. | .tick .. | .execute .. | .deliver => 0

theorem rounds_ofDrive {i : Nat} {e' : NvmeManager.Event} (he : e.ofDrive = some (i, e')) (m' : Manager) :
    Process.Local e' ∧ isOwn e' = true ∧ isInitialize e' = false ∧ rounds e m' = 0 := by
  cases e with
  | endpoints | inventory | execute | deliver => cases he
  | writeFault | erase | expire | tick =>
      obtain ⟨rfl, rfl⟩ := Prod.mk.inj (Option.some.inj he)
      exact ⟨trivial, rfl, rfl, rfl⟩

theorem own_self {i : Nat} {e' : NvmeManager.Event} (he : e.ofDrive = some (i, e')) : e.own i = [e'] := by
  unfold Event.own
  rw [he]
  exact ofTag_cons_self

theorem own_ne {i j : Nat} {e' : NvmeManager.Event} (he : e.ofDrive = some (j, e')) (hij : j ≠ i) : e.own i = [] := by
  unfold Event.own
  rw [he]
  exact ofTag_cons_ne hij

/-- What a step of the manager is to a drive: a run, in which it is initialized once if this is a round of the inventory,
and else not at all, and in which clients and its timer do what this event says. -/
structure Follows (cfg : Config) (m : Manager) (e : Event) (m' : Manager) (i : Nat) (d : NVMeDevice)
    (ds : List NvmeManager.Event) (p : Process) : Prop where
  run : Run (Process.Step cfg) ⟨d, false⟩ ds p
  view : m'.view i = some p.drive
  aborted : p.aborted = true → m'.aborted = true
  initialized : ds.countP isInitialize = rounds e m'
  own : ds.filter isOwn = e.own i

theorem Follows.unchanged {i : Nat} {d : NVMeDevice} (hview : m'.view i = some d) (hrounds : rounds e m' = 0)
    (hown : e.own i = []) : Follows cfg m e m' i d [] ⟨d, false⟩ :=
  ⟨.nil, hview, fun h => absurd h Bool.false_ne_true, hrounds.symm, hown.symm⟩

theorem Follows.one {i : Nat} {d : NVMeDevice} {e' : NvmeManager.Event} {p : Process}
    (hstep : Process.Step cfg ⟨d, false⟩ e' p) (hview : m'.view i = some p.drive)
    (haborted : p.aborted = true → m'.aborted = true) (hinit : isInitialize e' = false) (hrounds : rounds e m' = 0)
    (hown : [e'].filter isOwn = e.own i) : Follows cfg m e m' i d [e'] p := by
  refine ⟨Run.nil.snoc hstep, hview, haborted, ?_, hown⟩
  rw [hrounds, List.countP_singleton, hinit]
  rfl

/-- An event of one of the drives: it is an event of this drive, and concerns no other. -/
theorem process_of_settle {i j : Nat} {d : NVMeDevice} {a : Member} {e' : NvmeManager.Event} {p : Process}
    (hlocal : Process.Local e') (ha : m.members[j]? = some a) (hp : Process.Step cfg ⟨a.drive, false⟩ e' p)
    (hd : m.view i = some d) :
    (j = i ∧ ∃ q, Process.Step cfg ⟨d, false⟩ e' q ∧ q.aborted = false ∧ (m.settle j p.drive).view i = some q.drive) ∨
      (j ≠ i ∧ (m.settle j p.drive).view i = some d) := by
  by_cases hij : j = i
  · subst hij
    obtain ⟨b, hb, rfl⟩ := Option.map_eq_some_iff.mp hd
    rw [hb] at ha
    obtain rfl := Option.some.inj ha
    exact .inl ⟨rfl, _, Process.next_behind hlocal hp, rfl, view_settle_self hb⟩
  · rw [view_settle_ne hij]
    exact .inr ⟨hij, hd⟩

theorem process_of_step (hf : m.Formed) (h : m.Step cfg e m') {i : Nat} {d : NVMeDevice} (hd : m.view i = some d) :
    ∃ ds p, Follows cfg m e m' i d ds p := by
  obtain ⟨hrunning, hturn⟩ := turn_of_step h
  obtain ⟨b, hb, rfl⟩ := Option.map_eq_some_iff.mp hd
  have hi := (List.getElem?_eq_some_iff.mp hb).1
  cases hturn with
  | @added mctpEndpoints made s hs =>
      refine ⟨_, _, Follows.unchanged ?_ rfl rfl⟩
      have hb' : (m.construct cfg s made).members[i]? = some b := by
        unfold construct
        rw [List.getElem?_append_left hi]
        exact hb
      unfold view
      rw [hb']
      rfl
  | @initialized objData order last vs horder htrace =>
      have hlt : ∀ j ∈ order, j < m.members.length := fun j hj => ((hf.order horder).2 j).mp hj
      obtain ⟨hfst, hmem⟩ := zip_visited hlt fun d => (d.visitAll vs).initializeDrive cfg
      have hview := view_foldl_settle (m := m) (hfst.symm ▸ (hf.order horder).1) hb
        (hmem i b (((hf.order horder).2 i).mpr hi) hb)
      have haborted : (m.round cfg vs order).aborted = false := by
        rw [← hrunning]
        exact List.foldlRecOn _ _ (motive := fun m'' : Manager => m''.aborted = m.aborted) rfl fun m'' h a _ => h
      refine ⟨_, _, run_round vs _, ?_, fun h => absurd h Bool.false_ne_true, ?_, filter_roundEvents _ _⟩
      · rw [visitAll_behind, NVMeDevice.initializeDrive_behind]
        exact hview
      · rw [countP_roundEvents]
        unfold rounds
        rw [if_neg (by simp [haborted])]
  | endpointsThrown =>
      have hview : ({ m with aborted := true } : Manager).view i = some _ := hd
      exact ⟨_, _, Follows.unchanged hview rfl rfl⟩
  | inventoryThrown =>
      have hview : ({ m with aborted := true } : Manager).view i = some _ := hd
      exact ⟨_, _, Follows.unchanged hview rfl rfl⟩
  | @drive e j e' a p he ha hp =>
      obtain ⟨hlocal, hown, hinit, hrounds⟩ := rounds_ofDrive he (m.settle j p.drive)
      rcases process_of_settle hlocal ha hp hd with ⟨rfl, q, hq, hrunning', hview⟩ | ⟨hij, hview⟩
      · refine ⟨_, _, Follows.one hq hview (fun h => absurd h (by simp [hrunning'])) hinit hrounds ?_⟩
        rw [own_self he, List.filter_cons_of_pos hown, List.filter_nil]
      · exact ⟨_, _, Follows.unchanged hview hrounds (own_ne he hij)⟩
  | @execute lib errno j c rest a mi hworker ha hmi =>
      by_cases hij : j = i
      · subst hij
        rw [hb] at ha
        obtain rfl := Option.some.inj ha
        have hp : Process.next cfg ⟨b.drive.behind (c :: ofTag j rest) (ofTag j m.io), false⟩ (.execute lib errno) = _ :=
          Process.next_execute_behind b.worker hmi
        rw [← ofTag_cons_self, ← hworker] at hp
        exact ⟨_, _, Follows.one hp (view_settle_self (m := { m with workerIO := rest }) hb)
          (fun h => absurd h Bool.false_ne_true) rfl rfl rfl⟩
      · refine ⟨_, _, Follows.unchanged ?_ rfl rfl⟩
        rw [view_settle_ne hij, ← hd]
        unfold view
        rw [hworker, ofTag_cons_ne hij]
  | @deliver j q rest a d' hio ha hhandle =>
      by_cases hij : j = i
      · subst hij
        rw [hb] at ha
        obtain rfl := Option.some.inj ha
        have hp : Process.next cfg ⟨b.drive.behind (ofTag j m.workerIO) (q :: ofTag j rest), false⟩ .deliver = _ :=
          Process.next_deliver_behind b.io
        rw [← ofTag_cons_self, ← hio, hhandle] at hp
        exact ⟨_, _, Follows.one hp (view_settle_self (m := { m with io := rest }) hb)
          (fun h => absurd h Bool.false_ne_true) rfl rfl rfl⟩
      · refine ⟨_, _, Follows.unchanged ?_ rfl rfl⟩
        rw [view_settle_ne hij, ← hd]
        unfold view
        rw [hio, ofTag_cons_ne hij]
  | @divided j q rest a hio ha hhandle =>
      by_cases hij : j = i
      · subst hij
        rw [hb] at ha
        obtain rfl := Option.some.inj ha
        have hp : Process.next cfg ⟨b.drive.behind (ofTag j m.workerIO) (q :: ofTag j rest), false⟩ .deliver = _ :=
          Process.next_deliver_behind b.io
        rw [← ofTag_cons_self, ← hio, hhandle] at hp
        refine ⟨_, _, Follows.one hp ?_ (fun _ => rfl) rfl rfl rfl⟩
        unfold view
        rw [hb]
        rfl
      · refine ⟨_, _, Follows.unchanged ?_ rfl rfl⟩
        rw [← hd]
        unfold view
        rw [hio, ofTag_cons_ne hij]

theorem length_of_step (h : m.Step cfg e m') (he : ∀ mctpEndpoints made, e ≠ .endpoints mctpEndpoints made) :
    m'.members.length = m.members.length := by
  cases (turn_of_step h).2 with
  | added hs => exact absurd rfl (he _ _)
  | @initialized objData order last vs horder htrace =>
      exact List.foldlRecOn _ _ (motive := fun m'' : Manager => m''.members.length = m.members.length) rfl
        fun m'' h a _ => by rw [length_settle, h]
  | endpointsThrown | inventoryThrown | divided => rfl
  | drive | execute | deliver => exact length_settle

theorem constructed_of_step (hf : m.Formed) (h : m.Step cfg e m') {i : Nat} (hold : m.members.length ≤ i)
    (hnew : i < m'.members.length) : ∃ (k : Construction) (args : DriveArgs),
      m'.drives.created[i]? = some args ∧ m'.view i = some (k.create cfg args) := by
  cases (turn_of_step h).2 with
  | @added mctpEndpoints made s hs =>
      have hf' := formed_of_step hf h
      obtain ⟨args, hargs⟩ : ∃ args, s.created[i]? = some args :=
        ⟨_, List.getElem?_eq_getElem (show i < s.created.length from hf'.length ▸ hnew)⟩
      refine ⟨made i, args, hargs, ?_⟩
      have hmember : (m.construct cfg s made).members[i]? = some ((made i).create cfg args).settled := by
        unfold construct
        rw [List.getElem?_append_right hold, List.getElem?_map, List.getElem?_zipIdx, List.getElem?_drop,
          Nat.add_sub_cancel' hold, hargs]
        rfl
      have hworker : ofTag i m.workerIO = [] :=
        ofTag_eq_nil fun item hitem => Nat.ne_of_lt (Nat.lt_of_lt_of_le (hf.workerIO item hitem) hold)
      have hio : ofTag i m.io = [] :=
        ofTag_eq_nil fun item hitem => Nat.ne_of_lt (Nat.lt_of_lt_of_le (hf.io item hitem) hold)
      unfold view
      rw [hmember]
      change some (((made i).create cfg args).drained.behind (ofTag i m.workerIO) (ofTag i m.io)) = _
      rw [hworker, hio]
      rfl
  | endpointsThrown => exact absurd hnew (Nat.not_lt.mpr hold)
  | initialized | inventoryThrown | execute | deliver | divided =>
      rw [length_of_step h nofun] at hnew
      exact absurd hnew (Nat.not_lt.mpr hold)
  | drive he =>
      rw [length_of_step h (by rintro _ _ rfl; cases he)] at hnew
      exact absurd hnew (Nat.not_lt.mpr hold)

theorem created_of_step (hf : m.Formed) (h : m.Step cfg e m') : m.drives.created <+: m'.drives.created := by
  cases (turn_of_step h).2 with
  | added hs => exact (indexed_handle hf.indexed hs).2
  | @initialized objData order last vs horder htrace =>
      have hdrives : (m.round cfg vs order).drives = m.drives :=
        List.foldlRecOn _ _ (motive := fun m'' : Manager => m''.drives = m.drives) rfl fun m'' h a _ => h
      exact hdrives ▸ List.prefix_rfl
  | endpointsThrown | inventoryThrown | divided | drive | execute | deliver => exact List.prefix_rfl

def isInventory : Event → Bool
  | .inventory .. => true
  | .endpoints .. | .writeFault .. | .erase .. | .expire .. | .tick .. | .execute .. | .deliver => false

theorem rounds_eq (hrunning : m'.aborted = false) : rounds e m' = if isInventory e then 1 else 0 := by
  cases e with
  | inventory =>
      unfold rounds
      rw [hrunning]
      rfl
  | endpoints | writeFault | erase | expire | tick | execute | deliver => rfl

/-- The life of a drive in a run: it was constructed in the run, and has since gone through a run of `Process`, in which
it was initialized once in each round of the inventory, and in which clients and its timer did what the events say. -/
structure Life (cfg : Config) (es : List Event) (m : Manager) (i : Nat) (args : DriveArgs) (k : Construction)
    (ds : List NvmeManager.Event) (p : Process) : Prop where
  created : m.drives.created[i]? = some args
  run : Run (Process.Step cfg) ⟨k.create cfg args, false⟩ ds p
  view : m.view i = some p.drive
  aborted : p.aborted = true → m.aborted = true
  born : ∃ before after m₀, es = before ++ after ∧ Run (Step cfg) init before m₀ ∧ Run (Step cfg) m₀ after m ∧
    m₀.view i = some (k.create cfg args) ∧ (m.aborted = false → ds.countP isInitialize = after.countP isInventory) ∧
      ds.filter isOwn = after.flatMap (·.own i)

theorem formed_of_run {es : List Event} (hrun : Run (Step cfg) init es m) : m.Formed :=
  hrun.invariant Formed formed_init fun _ _ _ => formed_of_step

theorem Life.step {es : List Event} {i : Nat} {args : DriveArgs} {k : Construction} {ds : List NvmeManager.Event}
    {p : Process} (hf : m.Formed) (hlife : Life cfg es m i args k ds p) (h : m.Step cfg e m') :
    ∃ ds' p', Run (Process.Step cfg) p ds' p' ∧ Life cfg (es ++ [e]) m' i args k (ds ++ ds') p' ∧
      ds'.countP isInitialize = rounds e m' := by
  obtain ⟨ds', p', hfollows⟩ := process_of_step hf h hlife.view
  have hrunning : m.aborted = false := (turn_of_step h).1
  have hp : p = ⟨p.drive, false⟩ := by
    cases hp : p.aborted with
    | true => exact absurd (hlife.aborted hp) (by simp [hrunning])
    | false => rw [← hp]
  have hrun : Run (Process.Step cfg) p ds' p' := hp ▸ hfollows.run
  obtain ⟨before, after, m₀, rfl, hbefore, hafter, hm₀, hcount, hown⟩ := hlife.born
  refine ⟨ds', p', hrun, ⟨?_, hlife.run.append hrun, hfollows.view, hfollows.aborted,
    before, after ++ [e], m₀, List.append_assoc _ _ _, hbefore, hafter.snoc h, hm₀, fun hrunning' => ?_, ?_⟩,
    hfollows.initialized⟩
  · obtain ⟨rest, hrest⟩ := created_of_step hf h
    rw [← hrest, List.getElem?_append_left (List.getElem?_eq_some_iff.mp hlife.created).1]
    exact hlife.created
  · rw [List.countP_append, List.countP_append, hcount hrunning, hfollows.initialized, rounds_eq hrunning',
      List.countP_singleton]
  · rw [List.filter_append, List.flatMap_append, hown, hfollows.own, List.flatMap_singleton]

theorem exists_life {es : List Event} (hrun : Run (Step cfg) init es m) {i : Nat} (hi : i < m.members.length) :
    ∃ args k ds p, Life cfg es m i args k ds p := by
  induction hrun with
  | nil => cases hi
  | @snoc es m m' e hrun h ih =>
      have hf := formed_of_run hrun
      rcases Nat.lt_or_ge i m.members.length with hold | hnew
      · obtain ⟨args, k, ds, p, hlife⟩ := ih hold
        obtain ⟨ds', p', -, hlife', -⟩ := hlife.step hf h
        exact ⟨args, k, ds ++ ds', p', hlife'⟩
      · obtain ⟨k, args, hargs, hview⟩ := constructed_of_step hf h hnew hi
        exact ⟨args, k, [], _, hargs, .nil, hview, fun h => absurd h Bool.false_ne_true, es ++ [e], [], m',
          (List.append_nil _).symm, hrun.snoc h, .nil, hview, fun _ => rfl, rfl⟩

/-- **Refinement.** Every drive of the manager is at every moment in a state that a run of `Process` leads to from its
construction; in this run, as long as the program is not aborted, it is initialized exactly once in each round of the
inventory, and clients and its timer do what they have done to this drive and nothing else. Every request and every
callback in the shared queues is one of these drives. -/
theorem life_of_run {es : List Event} (hrun : Run (Step cfg) init es m) :
    (∀ i < m.members.length, ∃ args k ds p, Life cfg es m i args k ds p) ∧
      (∀ item ∈ m.workerIO, item.1 < m.members.length) ∧ ∀ item ∈ m.io, item.1 < m.members.length :=
  ⟨fun _ hi => exists_life hrun hi, Formed.workerIO (formed_of_run hrun), Formed.io (formed_of_run hrun)⟩

def firstConstruction : Construction := ⟨default, default, some 5000⟩

/-- The drive of endpoint 10 is constructed and initialized. -/
theorem life_of_run_first : ∃ m args k ds p, m.members.length = 1 ∧
    Life .standard [.endpoints endpointSnapshot fun _ => firstConstruction, .inventory .empty [0]] m 0 args k ds p := by
  have hfacts : ([Event.endpoints endpointSnapshot fun _ => firstConstruction, .inventory .empty [0]].foldlM
      (fun (m : Manager) e => m.next .standard e) init).any (fun m => m.members.length = 1) = true := by
    decide +kernel
  obtain ⟨m, hm, hlength⟩ := (Option.any_eq_true _ _).mp hfacts
  rw [decide_eq_true_eq] at hlength
  have hrun : Run (Step .standard) init _ m := Run.of_foldlM hm
  obtain ⟨args, k, ds, p, hlife⟩ := (life_of_run hrun).1 0 (by omega)
  exact ⟨m, args, k, ds, p, hlength, hlife⟩

end Manager
end NvmeManager
