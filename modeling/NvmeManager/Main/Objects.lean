import NvmeManager.Lib.Worklist
import NvmeManager.Main.Dbus
import Mathlib.Algebra.Order.BigOperators.Group.List
import Mathlib.Algebra.BigOperators.Ring.List
import Mathlib.Algebra.Ring.Nat

/-!
# Collecting the objects of the bus

A `getObjects` asks the mapper for objects and then each object for its interfaces. Every closure that is handed out, to
a request or to a timer, holds a reference to it, and its destructor calls back with what has been collected.

* `GetObjects` : the reference count, the closures that are outstanding, and the data; `getPath`, `getConfiguration`,
  `release` : the functions, and the end of a reference;
* `Event`, `next` : a reply comes in, or a timer expires;
* `selected`, `follow`, `store` : what an event leads to; `body_eq` : it leads to nothing else;
* `collected_of_run` : what holds in every state of a run.
-/

namespace NvmeManager

abbrev GetSubTreeType := List (String × List (String × List String))

/-- The arguments of a call of `getPath`. -/
structure PathRequest where
  path : String
  interface : String
  owner : String
  retries : Nat
  deriving DecidableEq

namespace PathRequest

def pair (r : PathRequest) : String × String := (r.path, r.interface)

/-- There are at most five retries. -/
def capped (r : PathRequest) : PathRequest := { r with retries := min r.retries 5 }

@[simp] theorem pair_capped (r : PathRequest) : r.capped.pair = r.pair := rfl

end PathRequest

/-- A closure that is outstanding: of a request to the mapper or to an object, or of the timer after a failed one. -/
inductive Work
  | mapper (retries : Nat)
  | mapperTimer (retries : Nat)
  | path (r : PathRequest)
  | pathTimer (r : PathRequest)
  deriving DecidableEq

structure GetObjects where
  /-- The number of references. -/
  refs : Nat
  outstanding : List Work
  /-- The pairs of path and interface that have been requested, oldest first. -/
  requests : List (String × String)
  respData : ManagedObjectType
  /-- The data of the calls of `callback`. -/
  called : List ManagedObjectType

namespace GetObjects

/-- What the run of a closure gets to know: the reply, with `none` for an error, or how the timer ended. -/
inductive Event
  | mapperReply (retries : Nat) (ret : Option GetSubTreeType)
  | mapperTimer (retries : Nat) (ok : Bool)
  | pathReply (r : PathRequest) (data : Option Properties)
  | pathTimer (r : PathRequest) (ok : Bool)

def Event.work : Event → Work
  | mapperReply retries _ => .mapper retries
  | mapperTimer retries _ => .mapperTimer retries
  | pathReply r _ => .path r
  | pathTimer r _ => .pathTimer r

variable (self : GetObjects) (interfaces : List String)

/-- A closure that holds `self` is handed out. -/
def hold (w : Work) : GetObjects := { self with refs := self.refs + 1, outstanding := self.outstanding ++ [w] }

/-- A reference ends; the destructor calls back. -/
def release : GetObjects :=
  if self.refs - 1 = 0 then { self with refs := 0, called := self.called ++ [self.respData] }
  else { self with refs := self.refs - 1 }

def getPath (r : PathRequest) : GetObjects :=
  { self with requests := self.requests ++ [r.pair] }.hold (.path r.capped)

def getConfiguration (retries : Nat) : GetObjects := self.hold (.mapper (min retries 5))

/-- The number of requested interfaces that an object has, as a byte. -/
def num (ifaces : List String) : UInt8 := ifaces.foldl (fun num i => if i ∈ interfaces then num + 1 else num) 0

def mapperLoop : GetSubTreeType → GetObjects → GetObjects
  | [], self => self
  | (_, []) :: _, self => self
  | (path, (owner, ifaces) :: _) :: rest, self =>
    -- satisfy all interfaces the caller specified
    if (num interfaces ifaces).toNat ≠ interfaces.length then mapperLoop rest self
    else
      mapperLoop rest <| ifaces.foldl
        (fun self i => if i ∉ interfaces then self else self.getPath ⟨path, i, owner, 5⟩) self

/-- `respData[path][interface] = data` -/
def put (m : ManagedObjectType) (r : PathRequest) (data : Properties) : ManagedObjectType :=
  m.insert r.path (((m.find? r.path).getD .empty).insert r.interface data)

def body : Event → GetObjects → GetObjects
  | .mapperReply retries none, self => if retries = 0 then self else self.hold (.mapperTimer retries)
  | .mapperReply _ (some ret), self => mapperLoop interfaces ret self
  | .mapperTimer retries ok, self => if ok then self.getConfiguration (retries - 1) else self
  | .pathReply r none, self => if r.retries = 0 then self else self.hold (.pathTimer r)
  | .pathReply r (some data), self => { self with respData := put self.respData r data }
  | .pathTimer r ok, self => if ok then self.getPath { r with retries := r.retries - 1 } else self

/-- A closure that is outstanding is run and destroyed. -/
def next (e : Event) : Option GetObjects :=
  if e.work ∈ self.outstanding then
    some (body interfaces e { self with outstanding := self.outstanding.erase e.work }).release
  else
    none

/-- The object is made, the mapper is asked, and the maker gives up its reference. -/
def start (retries : Nat) : GetObjects := (getConfiguration ⟨1, [], [], .empty, []⟩ retries).release

/-! ## What an event leads to -/

/-- The requests that a reply of the mapper calls for. -/
def selected : GetSubTreeType → List PathRequest
  | [] => []
  | (_, []) :: _ => []
  | (path, (owner, ifaces) :: _) :: rest =>
    if (num interfaces ifaces).toNat ≠ interfaces.length then selected rest
    else (ifaces.filter (· ∈ interfaces)).map (⟨path, ·, owner, 5⟩) ++ selected rest

namespace Event

/-- The requests that the mapper calls for in an event. -/
def selected (interfaces : List String) : Event → List PathRequest
  | mapperReply _ (some ret) => GetObjects.selected interfaces ret
  | mapperReply _ none | mapperTimer .. | pathReply .. | pathTimer .. => []

def follow (interfaces : List String) : Event → List Work
  | mapperReply retries none => if retries = 0 then [] else [.mapperTimer retries]
  | mapperReply _ (some ret) => (GetObjects.selected interfaces ret).map (.path ·.capped)
  | mapperTimer retries ok => if ok then [.mapper (min (retries - 1) 5)] else []
  | pathReply r none => if r.retries = 0 then [] else [.pathTimer r]
  | pathReply _ (some _) => []
  | pathTimer r ok => if ok then [.path { r with retries := r.retries - 1 }.capped] else []

def store : Event → ManagedObjectType → ManagedObjectType
  | pathReply r (some data), m => put m r data
  | _, m => m

end Event

def asked (ws : List Work) : List (String × String) :=
  ws.filterMap fun w =>
    match w with
    | .path r => some r.pair
    | _ => none

def holdAll (ws : List Work) : GetObjects :=
  { self with
    refs := self.refs + ws.length
    outstanding := self.outstanding ++ ws
    requests := self.requests ++ asked ws }

section
variable {self interfaces}

theorem holdAll_append (ws ws' : List Work) : (self.holdAll ws).holdAll ws' = self.holdAll (ws ++ ws') := by
  simp [holdAll, asked, Nat.add_assoc]

theorem holdAll_nil : self.holdAll [] = self := by simp [holdAll, asked]

theorem getPath_eq (r : PathRequest) : self.getPath r = self.holdAll [.path r.capped] := rfl

theorem foldl_getPath (path owner : String) (ifaces : List String) (self : GetObjects) :
    ifaces.foldl (fun self i => if i ∉ interfaces then self else self.getPath ⟨path, i, owner, 5⟩) self =
      self.holdAll (((ifaces.filter (· ∈ interfaces)).map fun i => PathRequest.mk path i owner 5).map (.path ·.capped)) := by
  induction ifaces generalizing self with
  | nil => exact holdAll_nil.symm
  | cons i ifaces ih =>
      rw [List.foldl_cons, ih]
      by_cases hi : i ∈ interfaces
      · rw [if_neg (not_not_intro hi), List.filter_cons_of_pos (by simpa using hi), getPath_eq, holdAll_append]
        rfl
      · rw [if_pos hi, List.filter_cons_of_neg (by simpa using hi)]

theorem mapperLoop_eq (ret : GetSubTreeType) (self : GetObjects) :
    mapperLoop interfaces ret self = self.holdAll ((selected interfaces ret).map (.path ·.capped)) := by
  induction ret generalizing self with
  | nil => exact holdAll_nil.symm
  | cons object rest ih =>
      obtain ⟨path, objDict⟩ := object
      cases objDict with
      | nil => exact holdAll_nil.symm
      | cons service services =>
          obtain ⟨owner, ifaces⟩ := service
          unfold mapperLoop selected
          by_cases hnum : (num interfaces ifaces).toNat ≠ interfaces.length
          · rw [if_pos hnum, if_pos hnum]
            exact ih self
          · rw [if_neg hnum, if_neg hnum, ih, foldl_getPath, holdAll_append, List.map_append]

/-- The body of a closure hands out the closures that follow, and stores the data. -/
theorem body_eq (e : Event) (self : GetObjects) :
    body interfaces e self = { self.holdAll (e.follow interfaces) with respData := e.store self.respData } := by
  cases e with
  | mapperReply retries ret =>
      cases ret with
      | none =>
          by_cases hr : retries = 0
          · simp [body, Event.follow, hr, holdAll, asked, Event.store]
          · simp [body, Event.follow, hr, hold, holdAll, asked, Event.store]
      | some ret => exact mapperLoop_eq ret self
  | mapperTimer retries ok =>
      cases ok with
      | false => exact holdAll_nil.symm
      | true => simp [body, getConfiguration, hold, Event.follow, holdAll, asked, Event.store]
  | pathReply r data =>
      cases data with
      | none =>
          by_cases hr : r.retries = 0
          · simp [body, Event.follow, hr, holdAll, asked, Event.store]
          · simp [body, Event.follow, hr, hold, holdAll, asked, Event.store]
      | some data => simp [body, Event.follow, holdAll, asked, Event.store]
  | pathTimer r ok =>
      cases ok with
      | false => exact holdAll_nil.symm
      | true => exact getPath_eq _

/-! ## The reference count -/

/-- The references are those of the closures that are outstanding, and the object has called back if there are none. -/
structure Counted (g : GetObjects) : Prop where
  refs : g.refs = g.outstanding.length
  called : g.called = if g.outstanding = [] then [g.respData] else []

@[simp] theorem outstanding_release : self.release.outstanding = self.outstanding := by
  unfold release
  split <;> rfl

@[simp] theorem requests_release : self.release.requests = self.requests := by
  unfold release
  split <;> rfl

@[simp] theorem respData_release : self.release.respData = self.respData := by
  unfold release
  split <;> rfl

theorem counted_release (hrefs : self.refs = self.outstanding.length + 1) (hcalled : self.called = []) :
    self.release.Counted := by
  unfold release
  by_cases hlast : self.outstanding = []
  · have hone : self.refs - 1 = 0 := by simp [hrefs, hlast]
    rw [if_pos hone]
    exact ⟨by simp [hlast], by simp [hcalled, hlast]⟩
  · have hpos := List.length_pos_iff.mpr hlast
    have hmore : ¬ self.refs - 1 = 0 := by omega
    rw [if_neg hmore]
    exact ⟨by simp [hrefs], by simp [hcalled, hlast]⟩

theorem counted_start (retries : Nat) : (start retries).Counted := by
  refine counted_release ?_ rfl
  rfl

variable {e : Event} {self' : GetObjects}

theorem next_eq_some (h : self.next interfaces e = some self') : e.work ∈ self.outstanding ∧
    self' = release { self with
      refs := self.refs + (e.follow interfaces).length
      outstanding := self.outstanding.erase e.work ++ e.follow interfaces
      requests := self.requests ++ asked (e.follow interfaces)
      respData := e.store self.respData } := by
  unfold next at h
  by_cases hmem : e.work ∈ self.outstanding
  · rw [if_pos hmem, body_eq] at h
    exact ⟨hmem, (Option.some.inj h).symm⟩
  · rw [if_neg hmem] at h
    cases h

theorem counted_next (hc : self.Counted) (h : self.next interfaces e = some self') : self'.Counted := by
  obtain ⟨hmem, rfl⟩ := next_eq_some h
  have hne : self.outstanding ≠ [] := List.ne_nil_of_mem hmem
  have hpos := List.length_pos_of_mem hmem
  refine counted_release ?_ ?_
  · simp only [hc.refs, List.length_append, List.length_erase_of_mem hmem]
    omega
  · rw [hc.called, if_neg hne]

theorem worklist_next (h : self.next interfaces e = some self') :
    Worklist.next Event.work (Event.follow interfaces) self.outstanding e = some self'.outstanding := by
  obtain ⟨hmem, rfl⟩ := next_eq_some h
  rw [outstanding_release]
  exact Worklist.next_eq_some_iff.mpr ⟨hmem, rfl⟩

/-! ## Runs -/

variable {retries : Nat} {es : List Event}

def Runs (interfaces : List String) (retries : Nat) (es : List Event) (self : GetObjects) : Prop :=
  Run (fun self e self' => next self interfaces e = some self') (start retries) es self

theorem counted_of_run (hrun : Runs interfaces retries es self) : self.Counted :=
  hrun.invariant Counted (counted_start retries) fun _ _ _ hc h => counted_next hc h

theorem requests_of_run (hrun : Runs interfaces retries es self) :
    self.requests = es.flatMap fun e => asked (e.follow interfaces) := by
  refine hrun.history_invariant (fun es self => self.requests = es.flatMap fun e => asked (e.follow interfaces)) rfl ?_
  intro es self e self' ih h
  obtain ⟨_, rfl⟩ := next_eq_some h
  rw [requests_release, ih, List.flatMap_append, List.flatMap_singleton]

theorem respData_of_run (hrun : Runs interfaces retries es self) :
    self.respData = es.foldl (fun m e => e.store m) .empty := by
  refine hrun.history_invariant (fun es self => self.respData = es.foldl (fun m e => e.store m) .empty) rfl ?_
  intro es self e self' ih h
  obtain ⟨_, rfl⟩ := next_eq_some h
  rw [respData_release, List.foldl_append, ← ih]
  rfl

theorem account_of_run (hrun : Runs interfaces retries es self) {potential : Work → Nat} {cost gain : Event → Nat}
    (hpaid : ∀ e : Event, cost e + ((e.follow interfaces).map potential).sum ≤ potential e.work + gain e) :
    (es.map cost).sum + (self.outstanding.map potential).sum ≤
      potential (.mapper (min retries 5)) + (es.map gain).sum := by
  have hwork : Run (fun out e out' => Worklist.next Event.work (Event.follow interfaces) out e = some out')
      (start retries).outstanding es self.outstanding := hrun.map GetObjects.outstanding fun _ _ _ h => worklist_next h
  exact Worklist.account hpaid hwork

/-! ## Selected pairs -/

/-- The paths of a reply of the mapper are distinct, and so are the interfaces of each object. -/
def Event.Distinct : Event → Prop
  | mapperReply _ (some ret) =>
    (ret.map Prod.fst).Nodup ∧ ∀ object ∈ ret, ∀ service ∈ object.2.head?, service.2.Nodup
  | mapperReply _ none | mapperTimer .. | pathReply .. | pathTimer .. => True

def selections (interfaces : List String) (es : List Event) : List PathRequest := es.flatMap (Event.selected interfaces)

theorem path_of_mem_selected {ret : GetSubTreeType} {r : PathRequest} (hr : r ∈ selected interfaces ret) :
    r.path ∈ ret.map Prod.fst := by
  induction ret with
  | nil => cases hr
  | cons object rest ih =>
      obtain ⟨path, objDict⟩ := object
      cases objDict with
      | nil => cases hr
      | cons service services =>
          unfold selected at hr
          split at hr
          · exact List.mem_cons_of_mem _ (ih hr)
          · rcases List.mem_append.mp hr with hr | hr
            · obtain ⟨i, _, rfl⟩ := List.mem_map.mp hr
              exact List.mem_cons_self
            · exact List.mem_cons_of_mem _ (ih hr)

theorem nodup_selected {ret : GetSubTreeType} (hpaths : (ret.map Prod.fst).Nodup)
    (hifaces : ∀ object ∈ ret, ∀ service ∈ object.2.head?, service.2.Nodup) :
    ((selected interfaces ret).map PathRequest.pair).Nodup := by
  induction ret with
  | nil => exact List.nodup_nil
  | cons object rest ih =>
      obtain ⟨path, objDict⟩ := object
      obtain ⟨hpath, hpaths⟩ := List.nodup_cons.mp hpaths
      have hrest := ih hpaths fun o ho => hifaces o (List.mem_cons_of_mem _ ho)
      cases objDict with
      | nil => exact List.nodup_nil
      | cons service services =>
          unfold selected
          split
          · exact hrest
          · rw [List.map_append, List.map_map]
            have hown := hifaces _ List.mem_cons_self service rfl
            refine List.nodup_append.mpr ⟨?_, hrest, ?_⟩
            · exact (hown.filter _).map fun i j heq => (Prod.mk.inj heq).2
            · rintro p hp q hq rfl
              obtain ⟨i, _, rfl⟩ := List.mem_map.mp hp
              obtain ⟨r, hr, heq⟩ := List.mem_map.mp hq
              have hr := path_of_mem_selected hr
              have hsame : r.path = path := (Prod.mk.inj heq).1
              rw [hsame] at hr
              exact hpath hr

theorem Event.Distinct.nodup {e : Event} (h : e.Distinct) : ((e.selected interfaces).map PathRequest.pair).Nodup := by
  cases e with
  | mapperReply retries ret =>
      cases ret with
      | none => exact List.nodup_nil
      | some ret => exact nodup_selected h.1 h.2
  | mapperTimer | pathReply | pathTimer => exact List.nodup_nil

def Event.replies : Event → Nat
  | mapperReply _ (some _) => 1
  | mapperReply _ none | mapperTimer .. | pathReply .. | pathTimer .. => 0

theorem selected_of_no_reply {e : Event} (h : e.replies = 0) : e.selected interfaces = [] := by
  unfold Event.replies at h
  unfold Event.selected
  split at h
  · cases h
  · rfl
  · rfl
  · rfl
  · rfl

variable (interfaces) in
/-- Where the mapper replies at most once, all the requests are of one reply. -/
theorem selections_of_replies (h : (es.map Event.replies).sum ≤ 1) :
    selections interfaces es = [] ∨ ∃ e ∈ es, selections interfaces es = e.selected interfaces := by
  unfold selections
  induction es with
  | nil => exact .inl rfl
  | cons e es ih =>
      rw [List.map_cons, List.sum_cons] at h
      rw [List.flatMap_cons]
      by_cases he : e.replies = 0
      · rw [selected_of_no_reply he, List.nil_append]
        rw [he, Nat.zero_add] at h
        exact (ih h).imp id fun ⟨e', he', heq⟩ => ⟨e', List.mem_cons_of_mem _ he', heq⟩
      · have hnone : es.flatMap (Event.selected interfaces) = [] := by
          refine List.flatMap_eq_nil_iff.mpr fun e' he' => selected_of_no_reply ?_
          have hle : e'.replies ≤ (es.map Event.replies).sum :=
            List.single_le_sum (fun _ _ => Nat.zero_le _) _ (List.mem_map_of_mem he')
          omega
        rw [hnone, List.append_nil]
        exact .inr ⟨e, List.mem_cons_self, rfl⟩

/-! ## Accounts -/

def mapperWork : Work → Nat
  | .mapper _ | .mapperTimer _ => 1
  | .path _ | .pathTimer _ => 0

/-- The events that a closure can still lead to, but for those of the selected objects. -/
def steps : Work → Nat
  | .mapper retries => 2 * retries + 1
  | .mapperTimer retries => 2 * (retries - 1) + 2
  | .path r => 2 * r.retries + 1
  | .pathTimer r => 2 * (r.retries - 1) + 2

def isOf (p : String × String) : Work → Nat
  | .path r | .pathTimer r => if r.pair = p then 1 else 0
  | .mapper _ | .mapperTimer _ => 0

/-- The requests that a closure can still lead to for a pair. -/
def attempts (p : String × String) : Work → Nat
  | .path r => if r.pair = p then r.retries else 0
  | .pathTimer r => if r.pair = p then r.retries - 1 + 1 else 0
  | .mapper _ | .mapperTimer _ => 0

theorem asked_selected (rs : List PathRequest) : asked (rs.map (.path ·.capped)) = rs.map PathRequest.pair := by
  unfold asked
  induction rs with
  | nil => rfl
  | cons r rs ih =>
      rw [List.map_cons, List.filterMap_cons, ih]
      rfl

theorem sum_mapperWork (rs : List PathRequest) : ((rs.map fun r => Work.path r.capped).map mapperWork).sum = 0 := by
  induction rs with
  | nil => rfl
  | cons r rs ih => simpa [mapperWork] using ih

theorem sum_steps (rs : List PathRequest) : ((rs.map fun r => Work.path r.capped).map steps).sum ≤ 11 * rs.length := by
  induction rs with
  | nil => exact Nat.le_refl _
  | cons r rs ih =>
      have hcap : r.capped.retries ≤ 5 := Nat.min_le_right _ _
      rw [List.map_cons, List.map_cons, List.sum_cons, List.length_cons]
      change 2 * r.capped.retries + 1 + _ ≤ _
      omega

theorem sum_isOf (p : String × String) (rs : List PathRequest) :
    ((rs.map fun r => Work.path r.capped).map (isOf p)).sum = (rs.map PathRequest.pair).count p := by
  induction rs with
  | nil => rfl
  | cons r rs ih =>
      rw [List.map_cons, List.map_cons, List.sum_cons, ih, List.map_cons, List.count_cons, Nat.add_comm]
      by_cases hp : r.pair = p
      · simp [isOf, hp]
      · simp [isOf, hp]

theorem sum_attempts (p : String × String) (rs : List PathRequest) :
    ((rs.map fun r => Work.path r.capped).map (attempts p)).sum ≤ 5 * (rs.map PathRequest.pair).count p := by
  induction rs with
  | nil => exact Nat.le_refl _
  | cons r rs ih =>
      have hcap : r.capped.retries ≤ 5 := Nat.min_le_right _ _
      rw [List.map_cons, List.map_cons, List.sum_cons, List.map_cons, List.count_cons]
      by_cases hp : r.pair = p
      · simp only [attempts, PathRequest.pair_capped, hp, beq_self_eq_true, if_true]
        omega
      · simp only [attempts, PathRequest.pair_capped, hp, beq_eq_false_iff_ne.mpr hp, if_false, Bool.false_eq_true]
        omega

/-- One closure takes the place of another: the timer after an error, and the request after the timer. -/
inductive Event.Retries : Event → Work → Prop
  | mapperTimer {retries : Nat} : retries ≠ 0 → Retries (mapperReply retries none) (.mapperTimer retries)
  | mapper {retries : Nat} : Retries (mapperTimer retries true) (.mapper (min (retries - 1) 5))
  | pathTimer {r : PathRequest} : r.retries ≠ 0 → Retries (pathReply r none) (.pathTimer r)
  | path {r : PathRequest} : Retries (pathTimer r true) (.path { r with retries := r.retries - 1 }.capped)

variable (interfaces) in
theorem follow_cases (e : Event) : (∃ retries ret, e = .mapperReply retries (some ret)) ∨
    e.follow interfaces = [] ∨ ∃ w, e.Retries w ∧ e.follow interfaces = [w] := by
  cases e with
  | mapperReply retries ret =>
      cases ret with
      | none =>
          by_cases hr : retries = 0
          · exact .inr (.inl (if_pos hr))
          · exact .inr (.inr ⟨_, .mapperTimer hr, if_neg hr⟩)
      | some ret => exact .inl ⟨retries, ret, rfl⟩
  | mapperTimer retries ok =>
      cases ok with
      | false => exact .inr (.inl rfl)
      | true => exact .inr (.inr ⟨_, .mapper, rfl⟩)
  | pathReply r data =>
      cases data with
      | none =>
          by_cases hr : r.retries = 0
          · exact .inr (.inl (if_pos hr))
          · exact .inr (.inr ⟨_, .pathTimer hr, if_neg hr⟩)
      | some data => exact .inr (.inl rfl)
  | pathTimer r ok =>
      cases ok with
      | false => exact .inr (.inl rfl)
      | true => exact .inr (.inr ⟨_, .path, rfl⟩)

/-- The charges of the closures, by what follows from an event. -/
theorem paid {potential : Work → Nat} {cost gain : Event → Nat}
    (hreply : ∀ retries ret, cost (.mapperReply retries (some ret)) +
      (((selected interfaces ret).map fun r => Work.path r.capped).map potential).sum ≤
        potential (.mapper retries) + gain (.mapperReply retries (some ret)))
    (hend : ∀ e : Event, e.follow interfaces = [] → cost e ≤ potential e.work + gain e)
    (hretry : ∀ (e : Event) w, e.Retries w → e.follow interfaces = [w] →
      cost e + potential w ≤ potential e.work + gain e) (e : Event) :
    cost e + ((e.follow interfaces).map potential).sum ≤ potential e.work + gain e := by
  rcases follow_cases interfaces e with ⟨retries, ret, rfl⟩ | hnone | ⟨w, hw, hone⟩
  · exact hreply retries ret
  · rw [hnone]
    exact hend e hnone
  · rw [hone, List.map_singleton, List.sum_singleton]
    exact hretry e w hw hone

theorem replies_of_run (hrun : Runs interfaces retries es self) : (es.map Event.replies).sum ≤ 1 := by
  have hpaid : ∀ e : Event, e.replies + ((e.follow interfaces).map mapperWork).sum ≤ mapperWork e.work + 0 := by
    refine paid (fun retries ret => ?_) (fun e _ => ?_) fun e w hw _ => ?_
    · rw [sum_mapperWork]
      exact Nat.le_refl _
    · cases e with
      | mapperReply retries ret =>
          cases ret with
          | none => exact Nat.zero_le _
          | some ret => exact Nat.le_refl _
      | mapperTimer | pathReply | pathTimer => exact Nat.zero_le _
    · cases hw with
      | mapperTimer | mapper | pathTimer | path => exact Nat.le_refl _
  have haccount := account_of_run hrun hpaid
  have hgain : (es.map fun _ => 0).sum = 0 := by simp
  rw [hgain] at haccount
  exact Nat.le_trans (Nat.le_add_right _ _) haccount

/-- A run is not longer than what the first request of the mapper and the selected requests can lead to. -/
theorem length_of_run (hrun : Runs interfaces retries es self) :
    es.length ≤ 2 * min retries 5 + 1 + 11 * (selections interfaces es).length := by
  have hpaid : ∀ e : Event, 1 + ((e.follow interfaces).map steps).sum ≤
      steps e.work + 11 * (e.selected interfaces).length := by
    refine paid (fun retries ret => ?_) (fun e _ => ?_) fun e w hw _ => ?_
    · have hsum := sum_steps (selected interfaces ret)
      change 1 + _ ≤ 2 * retries + 1 + 11 * (selected interfaces ret).length
      omega
    · cases e with
      | mapperReply | mapperTimer | pathReply | pathTimer =>
          simp only [Event.work, steps]
          omega
    · cases hw with
      | mapperTimer | mapper | pathTimer | path =>
          simp only [Event.work, steps, PathRequest.capped]
          omega
  have haccount := account_of_run hrun hpaid
  have hgain : (es.map fun e => 11 * (e.selected interfaces).length).sum = 11 * (selections interfaces es).length := by
    rw [selections, List.length_flatMap]
    exact List.sum_map_mul_left es (fun e => (e.selected interfaces).length) 11
  have hcost : (es.map fun _ => 1).sum = es.length := by
    rw [List.map_const', List.sum_replicate_nat, Nat.mul_one]
  rw [hgain, hcost] at haccount
  exact Nat.le_trans (Nat.le_add_right _ _) haccount

/-- The data that an event brings for a pair. -/
def Event.success? (p : String × String) : Event → Option Properties
  | pathReply r (some data) => if r.pair = p then some data else none
  | pathReply _ none | mapperReply .. | mapperTimer .. | pathTimer .. => none

/-- A pair is not answered more often than it is selected. -/
theorem successes_of_run (hrun : Runs interfaces retries es self) (p : String × String) :
    (es.filterMap (Event.success? p)).length ≤ ((selections interfaces es).map PathRequest.pair).count p := by
  have hpaid : ∀ e : Event, (e.success? p).toList.length + ((e.follow interfaces).map (isOf p)).sum ≤
      isOf p e.work + ((e.selected interfaces).map PathRequest.pair).count p := by
    refine paid (fun retries ret => ?_) (fun e _ => ?_) fun e w hw _ => ?_
    · rw [sum_isOf]
      exact Nat.le_refl _
    · cases e with
      | pathReply r data =>
          cases data with
          | none => exact Nat.zero_le _
          | some data =>
              by_cases hp : r.pair = p
              · simp [Event.success?, Event.work, isOf, hp]
              · simp [Event.success?, hp]
      | mapperReply | mapperTimer | pathTimer => exact Nat.zero_le _
    · cases hw with
      | mapperTimer | mapper => exact Nat.le_refl _
      | pathTimer hr =>
          change 0 + _ ≤ _
          rw [Nat.zero_add]
          exact Nat.le_add_right _ _
      | path =>
          change 0 + _ ≤ _
          rw [Nat.zero_add]
          exact Nat.le_add_right _ _
  have haccount := account_of_run hrun hpaid
  have hcost : (es.filterMap (Event.success? p)).length = (es.map fun e => (e.success? p).toList.length).sum := by
    rw [List.filterMap_eq_flatMap_toList, List.length_flatMap]
  have hgain : ((selections interfaces es).map PathRequest.pair).count p =
      (es.map fun e => ((e.selected interfaces).map PathRequest.pair).count p).sum := by
    rw [selections, List.map_flatMap, List.count_flatMap]
    rfl
  rw [hcost, hgain]
  refine Nat.le_trans (Nat.le_add_right _ _) (Nat.le_trans haccount ?_)
  exact Nat.le_of_eq (Nat.zero_add _)

/-- Each time a pair is selected there are at most six requests for it. -/
theorem attempts_of_run (hrun : Runs interfaces retries es self) (p : String × String) :
    self.requests.count p ≤ 6 * ((selections interfaces es).map PathRequest.pair).count p := by
  have hpaid : ∀ e : Event, (asked (e.follow interfaces)).count p + ((e.follow interfaces).map (attempts p)).sum ≤
      attempts p e.work + 6 * ((e.selected interfaces).map PathRequest.pair).count p := by
    refine paid (fun retries ret => ?_) (fun e hnone => ?_) fun e w hw hone => ?_
    · have hsum := sum_attempts p (selected interfaces ret)
      have hasked := asked_selected (selected interfaces ret)
      simp only [Event.follow, hasked, Event.selected, attempts]
      omega
    · rw [hnone]
      exact Nat.zero_le _
    · rw [hone]
      cases hw with
      | mapperTimer | mapper => exact Nat.zero_le _
      | @pathTimer r hr =>
          by_cases hp : r.pair = p
          · simp [asked, Event.work, attempts, hp]
            omega
          · simp [asked, Event.work, attempts, hp]
      | @path r =>
          clear hone
          generalize hr' : ({ r with retries := r.retries - 1 } : PathRequest).capped = r'
          have hpair : r'.pair = r.pair := by rw [← hr']; rfl
          have hless : r'.retries ≤ r.retries - 1 := by rw [← hr']; exact Nat.min_le_left _ _
          by_cases hp : r.pair = p
          · simp [asked, hpair, Event.work, attempts, hp]
            omega
          · simp [asked, hpair, Event.work, attempts, hp]
  have haccount := account_of_run hrun hpaid
  have hcost : self.requests.count p = (es.map fun e => (asked (e.follow interfaces)).count p).sum := by
    rw [requests_of_run hrun, List.count_flatMap]
    rfl
  have hgain : 6 * ((selections interfaces es).map PathRequest.pair).count p =
      (es.map fun e => 6 * ((e.selected interfaces).map PathRequest.pair).count p).sum := by
    rw [selections, List.map_flatMap, List.count_flatMap]
    exact (List.sum_map_mul_left ..).symm
  rw [hcost, hgain]
  refine Nat.le_trans (Nat.le_add_right _ _) (Nat.le_trans haccount ?_)
  exact Nat.le_of_eq (Nat.zero_add _)

/-! ## The data -/

def found (m : ManagedObjectType) (p : String × String) : Option Properties :=
  (m.find? p.1).bind fun data => data.find? p.2

def NoneEmpty (m : ManagedObjectType) : Prop :=
  ∀ (path : String) (data : DbusObject), m.find? path = some data → ∃ interface, (data.find? interface).isSome

theorem found_put (m : ManagedObjectType) (r : PathRequest) (data : Properties) (p : String × String) :
    found (put m r data) p = if r.pair = p then some data else found m p := by
  obtain ⟨path, interface⟩ := p
  unfold found put PathRequest.pair
  rw [FlatMap.find?_insert]
  by_cases hpath : path = r.path
  · rw [if_pos hpath, Option.bind_some, FlatMap.find?_insert]
    by_cases hinterface : interface = r.interface
    · rw [if_pos hinterface, if_pos (by rw [hpath, hinterface])]
    · rw [if_neg hinterface, if_neg fun heq => hinterface (Prod.mk.inj heq).2.symm, hpath]
      cases m.find? r.path with
      | none => rfl
      | some data => rfl
  · rw [if_neg hpath, if_neg fun heq => hpath (Prod.mk.inj heq).1.symm]

theorem found_store (e : Event) (m : ManagedObjectType) (p : String × String) :
    found (e.store m) p = (e.success? p).or (found m p) := by
  cases e with
  | pathReply r data =>
      cases data with
      | none => rfl
      | some data =>
          change found (put m r data) p = (if r.pair = p then some data else none).or (found m p)
          rw [found_put]
          by_cases hp : r.pair = p
          · rw [if_pos hp, if_pos hp, Option.some_or]
          · rw [if_neg hp, if_neg hp, Option.none_or]
  | mapperReply | mapperTimer | pathTimer => rfl

theorem noneEmpty_store (e : Event) {m : ManagedObjectType} (hm : NoneEmpty m) : NoneEmpty (e.store m) := by
  cases e with
  | pathReply r data =>
      cases data with
      | none => exact hm
      | some data =>
          intro path object hobject
          change (put m r data).find? path = some object at hobject
          unfold put at hobject
          rw [FlatMap.find?_insert] at hobject
          by_cases hpath : path = r.path
          · rw [if_pos hpath] at hobject
            obtain rfl := Option.some.inj hobject
            exact ⟨r.interface, by rw [FlatMap.find?_insert_self]; rfl⟩
          · rw [if_neg hpath] at hobject
            exact hm path object hobject
  | mapperReply | mapperTimer | pathTimer => exact hm

theorem noneEmpty_of_run (hrun : Runs interfaces retries es self) : NoneEmpty self.respData := by
  have hstart : NoneEmpty (start retries).respData := by
    intro path data h
    cases h
  refine hrun.invariant (fun self => NoneEmpty self.respData) hstart fun self e self' hm h => ?_
  obtain ⟨_, rfl⟩ := next_eq_some h
  rw [respData_release]
  exact noneEmpty_store e hm

/-- Data without empty objects is determined by its pairs. -/
theorem ext_found {m m' : ManagedObjectType} (hm : NoneEmpty m) (hm' : NoneEmpty m') (h : ∀ p, found m p = found m' p) :
    m = m' := by
  have hnone : ∀ {n n' : ManagedObjectType} {path : String}, NoneEmpty n → (∀ p, found n p = found n' p) →
      n'.find? path = none → n.find? path = none := by
    intro n n' path hn h hnone
    cases hfind : n.find? path with
    | none => rfl
    | some data =>
        obtain ⟨interface, hsome⟩ := hn path data hfind
        have heq := h (path, interface)
        simp only [found, hfind, hnone, Option.bind_some, Option.bind_none] at heq
        rw [heq] at hsome
        cases hsome
  refine FlatMap.ext_find? fun path => ?_
  cases hfind : m'.find? path with
  | none => exact hnone hm h hfind
  | some data' =>
      cases hfind' : m.find? path with
      | none =>
          rw [hnone hm' (fun p => (h p).symm) hfind'] at hfind
          cases hfind
      | some data =>
          refine congrArg some (FlatMap.ext_find? fun interface => ?_)
          have heq := h (path, interface)
          simpa only [found, hfind, hfind', Option.bind_some] using heq

/-- A pair has the data of its last success. -/
theorem found_of_run (hrun : Runs interfaces retries es self) (p : String × String) :
    found self.respData p = (es.filterMap (Event.success? p)).getLast? := by
  rw [respData_of_run hrun]
  clear hrun
  induction es using List.reverseRecOn with
  | nil => rfl
  | append_singleton es e ih =>
      rw [List.foldl_append, List.filterMap_append]
      change found (e.store _) p = _
      rw [found_store, ih]
      cases hsuccess : e.success? p with
      | none => simp [hsuccess]
      | some data => simp [hsuccess]

/-! ## What is collected -/

theorem mem_requests_iff (hrun : Runs interfaces retries es self) (p : String × String) :
    p ∈ self.requests ↔ p ∈ (selections interfaces es).map PathRequest.pair := by
  constructor
  · intro hp
    have hcount := attempts_of_run hrun p
    have hpos := List.count_pos_iff.mpr hp
    exact List.count_pos_iff.mp (by omega)
  · intro hp
    obtain ⟨r, hr, rfl⟩ := List.mem_map.mp hp
    obtain ⟨e, he, hr⟩ := List.mem_flatMap.mp hr
    rw [requests_of_run hrun]
    refine List.mem_flatMap.mpr ⟨e, he, ?_⟩
    cases e with
    | mapperReply n ret =>
        cases ret with
        | none => cases hr
        | some ret =>
            unfold Event.follow
            rw [asked_selected]
            exact List.mem_map_of_mem hr
    | mapperTimer | pathReply | pathTimer => cases hr

/-- What holds in the state that a run of events leads to. -/
structure Collected (interfaces : List String) (retries : Nat) (es : List Event) (g : GetObjects) : Prop where
  /-- The object calls back once nothing is outstanding, and then once, with the data. -/
  called : g.called = if g.outstanding = [] then [g.respData] else []
  /-- Everything that is outstanding can come in, -/
  enabled : ∀ w ∈ g.outstanding, ∃ e, e.work = w ∧ (g.next interfaces e).isSome
  /-- and there is an end to that. -/
  bounded : es.length ≤ 2 * min retries 5 + 1 + 11 * (selections interfaces es).length
  /-- The pairs that the mapper has called for are requested, and no others, -/
  selected : ∀ p, p ∈ g.requests ↔ p ∈ (selections interfaces es).map PathRequest.pair
  /-- each at most six times. -/
  attempts : ∀ p, g.requests.count p ≤ 6
  /-- The data are those of the pairs that have been answered. -/
  data : ∀ p data, found g.respData p = some data ↔ ∃ r, r.pair = p ∧ .pathReply r (some data) ∈ es

theorem count_selections_le (hrun : Runs interfaces retries es self) (hdistinct : ∀ e ∈ es, e.Distinct)
    (p : String × String) : ((selections interfaces es).map PathRequest.pair).count p ≤ 1 := by
  rcases selections_of_replies interfaces (replies_of_run hrun) with hnone | ⟨e, he, hselected⟩
  · rw [hnone]
    exact Nat.zero_le _
  · rw [hselected]
    exact List.nodup_iff_count_le_one.mp (hdistinct e he).nodup p

theorem successes_le_one (hrun : Runs interfaces retries es self) (hdistinct : ∀ e ∈ es, e.Distinct)
    (p : String × String) : (es.filterMap (Event.success? p)).length ≤ 1 :=
  Nat.le_trans (successes_of_run hrun p) (count_selections_le hrun hdistinct p)

theorem getLast?_eq_some_iff_mem {α : Type} {l : List α} (h : l.length ≤ 1) (a : α) : l.getLast? = some a ↔ a ∈ l := by
  cases l with
  | nil => simp
  | cons b l =>
      cases l with
      | nil => simp [eq_comm]
      | cons c l => simp at h

theorem mem_successes_iff {p : String × String} {data : Properties} :
    data ∈ es.filterMap (Event.success? p) ↔ ∃ r, r.pair = p ∧ .pathReply r (some data) ∈ es := by
  rw [List.mem_filterMap]
  constructor
  · rintro ⟨e, he, hsuccess⟩
    cases e with
    | pathReply r reply =>
        cases reply with
        | none => cases hsuccess
        | some reply =>
            change (if r.pair = p then some reply else none) = some data at hsuccess
            by_cases hp : r.pair = p
            · rw [if_pos hp] at hsuccess
              obtain rfl := Option.some.inj hsuccess
              exact ⟨r, hp, he⟩
            · rw [if_neg hp] at hsuccess
              cases hsuccess
    | mapperReply | mapperTimer | pathTimer => cases hsuccess
  · rintro ⟨r, hp, he⟩
    exact ⟨_, he, if_pos hp⟩

theorem isSome_next {w : Work} (hw : w ∈ self.outstanding) :
    ∃ e : Event, e.work = w ∧ (self.next interfaces e).isSome := by
  have hnext : ∀ e : Event, e.work = w → (self.next interfaces e).isSome := by
    rintro e rfl
    unfold next
    rw [if_pos hw]
    rfl
  cases w with
  | mapper retries => exact ⟨.mapperReply retries none, rfl, hnext _ rfl⟩
  | mapperTimer retries => exact ⟨.mapperTimer retries true, rfl, hnext _ rfl⟩
  | path r => exact ⟨.pathReply r none, rfl, hnext _ rfl⟩
  | pathTimer r => exact ⟨.pathTimer r true, rfl, hnext _ rfl⟩

/-- **Collecting.** In every state of a run the object has called back exactly if nothing is outstanding, the selected
pairs have been requested at most six times each, and the data are those of the pairs that have been answered; the same
events in another order lead to the same data. -/
theorem collected_of_run (hrun : Runs interfaces retries es self) (hdistinct : ∀ e ∈ es, e.Distinct) :
    Collected interfaces retries es self ∧
      ∀ es' self', Runs interfaces retries es' self' → es'.Perm es → self'.respData = self.respData := by
  refine ⟨⟨(counted_of_run hrun).called, fun w hw => isSome_next hw, length_of_run hrun, mem_requests_iff hrun, ?_, ?_⟩, ?_⟩
  · intro p
    have hcount := attempts_of_run hrun p
    have hone := count_selections_le hrun hdistinct p
    omega
  · intro p data
    rw [found_of_run hrun, getLast?_eq_some_iff_mem (successes_le_one hrun hdistinct p), mem_successes_iff]
  · intro es' self' hrun' hperm
    have hdistinct' : ∀ e ∈ es', e.Distinct := fun e he => hdistinct e (hperm.mem_iff.mp he)
    refine ext_found (noneEmpty_of_run hrun') (noneEmpty_of_run hrun) fun p => Option.ext fun data => ?_
    rw [found_of_run hrun', found_of_run hrun, getLast?_eq_some_iff_mem (successes_le_one hrun' hdistinct' p),
      getLast?_eq_some_iff_mem (successes_le_one hrun hdistinct p)]
    exact (hperm.filterMap _).mem_iff

/-- The mapper has one object, and the request for it is answered at the second attempt. -/
def retriedRun : List Event :=
  [.mapperReply 0 (some [("/mctp/0/10", [("mctpd", ["Endpoint", "Other"])])]),
    .pathReply ⟨"/mctp/0/10", "Endpoint", "mctpd", 5⟩ none,
    .pathTimer ⟨"/mctp/0/10", "Endpoint", "mctpd", 5⟩ true,
    .pathReply ⟨"/mctp/0/10", "Endpoint", "mctpd", 4⟩ (some .empty)]

theorem collected_of_run_retried : ∃ self, Runs ["Endpoint"] 0 retriedRun self ∧ self.called = [self.respData] ∧
    found self.respData ("/mctp/0/10", "Endpoint") = some .empty := by
  have hfacts : (retriedRun.foldlM (fun self e => next self ["Endpoint"] e) (start 0)).any (fun self =>
      self.outstanding = []) = true := by
    decide +kernel
  obtain ⟨self, hself, hidle⟩ := (Option.any_eq_true _ _).mp hfacts
  rw [decide_eq_true_eq] at hidle
  have hrun : Runs ["Endpoint"] 0 retriedRun self := Run.of_foldlM hself
  have hdistinct : ∀ e ∈ retriedRun, e.Distinct := by
    simp [retriedRun, Event.Distinct]
  obtain ⟨hcollected, _⟩ := collected_of_run hrun hdistinct
  refine ⟨self, hrun, hcollected.called.trans (if_pos hidle), (hcollected.data _ _).mpr ?_⟩
  exact ⟨⟨"/mctp/0/10", "Endpoint", "mctpd", 4⟩, rfl, by simp [retriedRun]⟩

/-- A service that names the interface of its object twice, in the place of two requested interfaces. -/
def repeatedReply : GetSubTreeType := [("/mctp/0/10", [("mctpd", ["Endpoint", "Endpoint"])])]

/-- Both requests fail, and then those of the first one's retries. -/
def repeatedRun : List Event :=
  .mapperReply 0 (some repeatedReply) :: [5, 4, 3, 2, 1].flatMap fun retries =>
    [.pathReply ⟨"/mctp/0/10", "Endpoint", "mctpd", retries⟩ none,
      .pathTimer ⟨"/mctp/0/10", "Endpoint", "mctpd", retries⟩ true]

/-- The paths of that reply are distinct, but the pair is requested seven times. -/
theorem repeated_interface : (repeatedReply.map Prod.fst).Nodup ∧
    ∃ self, Runs ["Endpoint", "UnixSocket"] 0 repeatedRun self ∧
      self.requests.count ("/mctp/0/10", "Endpoint") = 7 := by
  have hfacts : (repeatedRun.foldlM (fun self e => next self ["Endpoint", "UnixSocket"] e) (start 0)).any (fun self =>
      self.requests.count ("/mctp/0/10", "Endpoint") = 7) = true := by
    decide +kernel
  obtain ⟨self, hself, hcount⟩ := (Option.any_eq_true _ _).mp hfacts
  exact ⟨by decide, self, Run.of_foldlM hself, of_decide_eq_true hcount⟩

end
end GetObjects
end NvmeManager
