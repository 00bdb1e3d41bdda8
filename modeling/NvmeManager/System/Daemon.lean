import NvmeManager.Main.Discovery
import NvmeManager.Main.Objects
import NvmeManager.System.Manager

/-!
# The whole program

The signal handlers and the timer of `main`, the getters that collect the objects of the bus, and the drives.

* `Purpose`, `Getter` : a `getObjects` that is alive, and what it calls back; `Daemon` : the state of the program;
* `Daemon.next` : what one event does; `Turn`, `turn_of_step` : the same, with one case for each event;
* `Daemon.Accounted` : each action has one getter or one round, and each `createDrives` one call of
  `handleMCTPEndpoints`; `accounted_of_run` : in every run, whatever the getters collect;
* `served_of_run` : the drives of the program are those of a run of `Manager`, and each has its life there;
* `rounds_of_idle` : once everything is quiet, each signal has led to an action and each action to a round;
* `initialized_of_quiet` : whenever no inventory is collected, a round has initialized each drive;
* `rounds_le` : there are not more rounds than signals, and one.
-/

namespace NvmeManager

/-- The callback of a getter: `handleMCTPEndpoints` or `handleEmEndpoints`. -/
inductive Purpose
  | endpoints
  | inventory
  deriving DecidableEq, Repr

/-- The interfaces that `createDrives` and `collectInventory` ask for. -/
def Purpose.interfaces : Purpose → List String
  | endpoints => [mctpEpInterface, unixSocket, decoratorI2CDevice]
  | inventory =>
    [itemDrive, itemNVMe, decoratorI2CDevice, "xyz.openbmc_project.Inventory.Decorator.LocationCode",
      "xyz.openbmc_project.Inventory.Decorator.Location", associationDefinitions]

def Action.purpose : Action → Purpose
  | createDrives => .endpoints
  | collectInventory => .inventory

/-- A `getObjects` that is alive. -/
structure Getter where
  /-- The action that it was made for, by the number of actions before. -/
  origin : Nat
  purpose : Purpose
  object : GetObjects

def actions (h : List Entry) : List Action :=
  h.filterMap fun
    | .ran a => some a
    | .signal _ => none

structure Daemon where
  main : Main
  getters : List Getter
  manager : Manager
  /-- The actions whose endpoints have been handled, oldest first. -/
  looked : List Nat
  /-- The actions whose inventory has been handled, oldest first. -/
  rounds : List Nat

namespace Daemon
variable (cfg : Config)

def init : Daemon := ⟨.init, [], .init, [], []⟩

/-- What can happen next. -/
inductive Event
  | main (e : Main.Event)
  /-- A reply, or the end of a timer, for one of the getters; `made` and `order` are for the callback. -/
  | getter (n : Nat) (e : GetObjects.Event) (made : Nat → Construction) (order : List Nat)
  | drive (e : Manager.Event)

variable (d : Daemon)

def action? : Main.Event → Option Action
  | .runPosted => some .createDrives
  | .runFired => d.main.filterTimer.take?.map Prod.fst
  | .emHandler | .eventHandler | .ifaceRemovedMatch | .expire => none

/-- A getter is made: its first reference ends with `getConfiguration`, which retries no error of the mapper. -/
def make (origin : Nat) (purpose : Purpose) : Daemon :=
  { d with getters := d.getters ++ [⟨origin, purpose, .start 0⟩] }

/-- `createDrives` or `collectInventory` -/
def act : Option Action → Daemon
  | none => d
  | some a => d.make (actions d.main.history).length a.purpose

def callback (g : Getter) (data : ManagedObjectType) (made : Nat → Construction) (order : List Nat) : Option Daemon :=
  match g.purpose with
  | .endpoints =>
    (d.manager.next cfg (.endpoints data made)).map fun manager =>
      -- `handleMCTPEndpoints` ends in `collectInventory`
      { d with manager, looked := d.looked ++ [g.origin] }.make g.origin .inventory
  | .inventory =>
    (d.manager.next cfg (.inventory data order)).map fun manager =>
      { d with manager, rounds := d.rounds ++ [g.origin] }

def internal : Manager.Event → Bool
  | .endpoints .. | .inventory .. => false
  | .writeFault .. | .erase .. | .expire .. | .tick .. | .execute .. | .deliver => true

def next (e : Event) : Option Daemon :=
  if d.manager.aborted then none
  else
    match e with
    | .main e => (d.main.next e).map fun main => { d.act (d.action? e) with main }
    | .getter n e made order =>
      d.getters[n]?.bind fun g =>
        (g.object.next g.purpose.interfaces e).bind fun object =>
          match object.called with
          | [] => some { d with getters := d.getters.set n { g with object } }
          | data :: _ => { d with getters := d.getters.eraseIdx n }.callback cfg g data made order
    | .drive e => if internal e then (d.manager.next cfg e).map fun manager => { d with manager } else none

def Step (d : Daemon) (e : Event) (d' : Daemon) : Prop := d.next cfg e = some d'

/-- What each event does. -/
inductive Turn (d : Daemon) : Event → Daemon → Prop
  | main {e : Main.Event} {main : Main} :
      d.main.Step e main → Turn d (.main e) { d.act (d.action? e) with main }
  | getter {n : Nat} {e : GetObjects.Event} {made : Nat → Construction} {order : List Nat} {g : Getter}
      {object : GetObjects} :
      d.getters[n]? = some g → g.object.next g.purpose.interfaces e = some object → object.called = [] →
        Turn d (.getter n e made order) { d with getters := d.getters.set n { g with object } }
  | looked {n : Nat} {e : GetObjects.Event} {made : Nat → Construction} {order : List Nat} {g : Getter}
      {object : GetObjects} {data : ManagedObjectType} {manager : Manager} :
      d.getters[n]? = some g → g.purpose = .endpoints → g.object.next g.purpose.interfaces e = some object →
        data ∈ object.called → d.manager.Step cfg (.endpoints data made) manager →
        Turn d (.getter n e made order)
          { d with
            manager
            looked := d.looked ++ [g.origin]
            getters := d.getters.eraseIdx n ++ [⟨g.origin, .inventory, .start 0⟩] }
  | round {n : Nat} {e : GetObjects.Event} {made : Nat → Construction} {order : List Nat} {g : Getter}
      {object : GetObjects} {data : ManagedObjectType} {manager : Manager} :
      d.getters[n]? = some g → g.purpose = .inventory → g.object.next g.purpose.interfaces e = some object →
        data ∈ object.called → d.manager.Step cfg (.inventory data order) manager →
        Turn d (.getter n e made order)
          { d with manager, rounds := d.rounds ++ [g.origin], getters := d.getters.eraseIdx n }
  | drive {e : Manager.Event} {manager : Manager} :
      internal e = true → d.manager.Step cfg e manager → Turn d (.drive e) { d with manager }

variable {cfg} {d} {d' : Daemon} {e : Event}

theorem turn_of_step (h : d.Step cfg e d') : d.manager.aborted = false ∧ Turn cfg d e d' := by
  unfold Step next at h
  by_cases haborted : d.manager.aborted = true
  · rw [if_pos haborted] at h
    cases h
  · rw [if_neg haborted] at h
    refine ⟨Bool.eq_false_iff.mpr haborted, ?_⟩
    cases e with
    | main e =>
        obtain ⟨main, hmain, rfl⟩ := Option.map_eq_some_iff.mp h
        exact .main hmain
    | getter n e made order =>
        obtain ⟨g, hg, h⟩ := Option.bind_eq_some_iff.mp h
        obtain ⟨object, hobject, h⟩ := Option.bind_eq_some_iff.mp h
        cases hcalled : object.called with
        | nil =>
            rw [hcalled] at h
            obtain rfl := Option.some.inj h
            exact .getter hg hobject hcalled
        | cons data rest =>
            have hdata : data ∈ object.called := by
              rw [hcalled]
              exact List.mem_cons_self
            rw [hcalled] at h
            cases hpurpose : g.purpose with
            | endpoints =>
                simp only [callback, hpurpose] at h
                obtain ⟨manager, hmanager, rfl⟩ := Option.map_eq_some_iff.mp h
                exact .looked hg hpurpose hobject hdata hmanager
            | inventory =>
                simp only [callback, hpurpose] at h
                obtain ⟨manager, hmanager, rfl⟩ := Option.map_eq_some_iff.mp h
                exact .round hg hpurpose hobject hdata hmanager
    | drive e =>
        dsimp only at h
        by_cases hinternal : internal e = true
        · rw [if_pos hinternal] at h
          obtain ⟨manager, hmanager, rfl⟩ := Option.map_eq_some_iff.mp h
          exact .drive hinternal hmanager
        · rw [if_neg hinternal] at h
          cases h

/-! ## Actions, getters and rounds -/

/-- The getters that are alive, by what they are for. -/
def pending (d : Daemon) : List (Purpose × Nat) := d.getters.map fun g => (g.purpose, g.origin)

/-- Each action has led to one round, or has one getter that is alive; each `createDrives` has led to one call of
`handleMCTPEndpoints`, or has a getter that collects endpoints. -/
structure Accounted (d : Daemon) : Prop where
  rounds : (d.rounds ++ d.pending.map Prod.snd).Perm (List.range (actions d.main.history).length)
  looked : (d.looked ++ ofTag .endpoints d.pending).Perm (ofTag .createDrives (actions d.main.history).zipIdx)

theorem accounted_init : init.Accounted := ⟨.nil, .nil⟩

theorem actions_append_ran (h : List Entry) (a : Action) : actions (h ++ [.ran a]) = actions h ++ [a] := by
  simp [actions]

theorem actions_append_signal (h : List Entry) (s : Signal) : actions (h ++ [.signal s]) = actions h := by
  simp [actions]

theorem actions_main {e : Main.Event} {main : Main} (h : d.main.Step e main) :
    actions main.history = actions d.main.history ++ (d.action? e).toList := by
  cases e with
  | runPosted =>
      change (if d.main.posted then _ else none) = some main at h
      split at h
      · obtain rfl := Option.some.inj h
        exact actions_append_ran _ _
      · cases h
  | emHandler | eventHandler =>
      obtain rfl := Option.some.inj h
      exact (actions_append_signal _ _).trans (List.append_nil _).symm
  | ifaceRemovedMatch =>
      obtain rfl := Option.some.inj h
      exact (List.append_nil _).symm
  | expire =>
      obtain ⟨t, _, rfl⟩ := Option.map_eq_some_iff.mp h
      exact (List.append_nil _).symm
  | runFired =>
      obtain ⟨⟨a, t⟩, ht, rfl⟩ := Option.map_eq_some_iff.mp h
      unfold action?
      rw [ht]
      exact actions_append_ran _ _

theorem pending_set {n : Nat} {g : Getter} {object : GetObjects} (hg : d.getters[n]? = some g) :
    ({ d with getters := d.getters.set n { g with object } } : Daemon).pending = d.pending := by
  obtain ⟨hn, rfl⟩ := List.getElem?_eq_some_iff.mp hg
  have hn' : n < (d.getters.map fun g => (g.purpose, g.origin)).length := by simpa using hn
  unfold pending
  rw [List.map_set]
  calc _ = (d.getters.map fun g => (g.purpose, g.origin)).set n (d.getters.map fun g => (g.purpose, g.origin))[n] := by
        rw [List.getElem_map]
    _ = _ := List.set_getElem_self hn'

theorem pending_erase {n : Nat} {g : Getter} (hg : d.getters[n]? = some g) :
    d.pending.Perm ((g.purpose, g.origin) :: (d.getters.eraseIdx n).map fun g => (g.purpose, g.origin)) := by
  obtain ⟨hn, rfl⟩ := List.getElem?_eq_some_iff.mp hg
  exact ((List.getElem_cons_eraseIdx_perm hn).map _).symm

theorem Accounted.act (ha : d.Accounted) {main : Main} (a? : Option Action)
    (h : actions main.history = actions d.main.history ++ a?.toList) : ({ d.act a? with main } : Daemon).Accounted := by
  cases a? with
  | none =>
      obtain ⟨hrounds, hlooked⟩ := ha
      rw [Option.toList_none, List.append_nil] at h
      rw [← h] at hrounds hlooked
      exact ⟨hrounds, hlooked⟩
  | some a =>
      have hpending : ({ d.act (some a) with main } : Daemon).pending =
          d.pending ++ [(a.purpose, (actions d.main.history).length)] := by
        simp [pending, Daemon.act, make]
      have htag : ofTag Purpose.endpoints [(a.purpose, (actions d.main.history).length)] =
          ofTag Action.createDrives [(a, (actions d.main.history).length)] := by
        cases a with
        | createDrives => rfl
        | collectInventory => rfl
      refine ⟨?_, ?_⟩
      · change (d.rounds ++ _).Perm (List.range (actions main.history).length)
        rw [hpending, h, List.map_append, ← List.append_assoc, Option.toList_some, List.length_append,
          List.length_singleton, List.range_succ]
        exact ha.rounds.append_right _
      · change (d.looked ++ _).Perm (ofTag _ (actions main.history).zipIdx)
        rw [hpending, h, ofTag_append, ← List.append_assoc, Option.toList_some, List.zipIdx_append, ofTag_append, htag,
          Nat.zero_add]
        exact ha.looked.append_right _

theorem accounted_of_step (ha : d.Accounted) (h : d.Step cfg e d') : d'.Accounted := by
  cases (turn_of_step h).2 with
  | main hmain => exact ha.act _ (actions_main hmain)
  | getter hg hobject hcalled =>
      refine ⟨?_, ?_⟩
      · rw [pending_set hg]
        exact ha.rounds
      · rw [pending_set hg]
        exact ha.looked
  | @looked n e made order g object data manager hg hpurpose hobject hdata hmanager =>
      have hperm := pending_erase hg
      rw [hpurpose] at hperm
      refine ⟨?_, ?_⟩
      · refine .trans (.append_left _ ?_) ha.rounds
        simp only [pending, List.map_append, List.map_cons, List.map_nil]
        exact (List.perm_append_singleton _ _).trans (hperm.map Prod.snd).symm
      · refine .trans ?_ ha.looked
        rw [List.append_assoc]
        refine .append_left _ ?_
        have hnew : ofTag Purpose.endpoints [(Purpose.inventory, g.origin)] = [] := ofTag_cons_ne nofun
        simp only [pending, List.map_append, List.map_cons, List.map_nil, ofTag_append, hnew, List.append_nil,
          List.singleton_append]
        rw [← ofTag_cons_self]
        exact (perm_ofTag hperm).symm
  | @round n e made order g object data manager hg hpurpose hobject hdata hmanager =>
      have hperm := pending_erase hg
      rw [hpurpose] at hperm
      refine ⟨?_, ?_⟩
      · refine .trans ?_ ha.rounds
        rw [List.append_assoc]
        exact .append_left _ (hperm.map Prod.snd).symm
      · refine .trans (.append_left _ ?_) ha.looked
        have hne : Purpose.inventory ≠ .endpoints := nofun
        have hsame := perm_ofTag (i := Purpose.endpoints) hperm
        rw [ofTag_cons_ne hne] at hsame
        exact hsame.symm
  | drive hinternal hmanager => exact ⟨ha.rounds, ha.looked⟩

theorem accounted_of_run {es : List Event} (hrun : Run (Step cfg) init es d) : d.Accounted :=
  hrun.invariant Accounted accounted_init fun _ _ _ => accounted_of_step

/-! ## The drives of the program -/

/-- A drive that has been initialized since it was constructed. -/
def Initialized (cfg : Config) (es : List Manager.Event) (m : Manager) (i : Nat) : Prop :=
  ∃ args k ds p, Manager.Life cfg es m i args k ds p ∧ 0 < ds.countP Manager.isInitialize

/-- A drive that has been initialized stays so, and a round initializes each. -/
theorem initialized_of_step {es : List Manager.Event} {m m' : Manager} {e : Manager.Event} {i : Nat}
    (hrun : Run (Manager.Step cfg) .init es m) (h : m.Step cfg e m') (hi : i < m.members.length)
    (hinit : Initialized cfg es m i ∨ Manager.isInventory e = true ∧ m'.aborted = false) :
    Initialized cfg (es ++ [e]) m' i := by
  have hf := Manager.formed_of_run hrun
  rcases hinit with ⟨args, k, ds, p, hlife, hpos⟩ | ⟨hinv, hrunning⟩
  · obtain ⟨ds', p', -, hlife', hmore⟩ := hlife.step hf h
    exact ⟨args, k, _, p', hlife', by rw [List.countP_append]; omega⟩
  · obtain ⟨args, k, ds, p, hlife⟩ := Manager.exists_life hrun hi
    obtain ⟨ds', p', -, hlife', hmore⟩ := hlife.step hf h
    refine ⟨args, k, _, p', hlife', ?_⟩
    rw [List.countP_append, hmore, Manager.rounds_eq hrunning, if_pos hinv]
    omega

/-- What the program has done with its drives: a run of the manager, with an inventory for each round; without a getter
that collects the inventory, each drive has been initialized. -/
structure Served (cfg : Config) (es : List Manager.Event) (d : Daemon) : Prop where
  run : Run (Manager.Step cfg) .init es d.manager
  rounds : d.rounds.length = es.countP Manager.isInventory
  initialized : d.manager.aborted = false → (∀ g ∈ d.getters, g.purpose ≠ .inventory) →
    ∀ i < d.manager.members.length, Initialized cfg es d.manager i

theorem served_init : Served cfg [] init := ⟨.nil, rfl, fun _ _ _ hi => absurd hi (Nat.not_lt_zero _)⟩

theorem served_of_step {es : List Manager.Event} (hs : Served cfg es d) (h : d.Step cfg e d') :
    ∃ es', Served cfg (es ++ es') d' := by
  cases (turn_of_step h).2 with
  | @main e main hmain =>
      have hact : ({ d.act (d.action? e) with main } : Daemon).manager = d.manager ∧
          ({ d.act (d.action? e) with main } : Daemon).rounds = d.rounds ∧
          ∀ g ∈ d.getters, g ∈ ({ d.act (d.action? e) with main } : Daemon).getters := by
        cases d.action? e with
        | none => exact ⟨rfl, rfl, fun g hg => hg⟩
        | some a => exact ⟨rfl, rfl, fun g hg => List.mem_append_left _ hg⟩
      obtain ⟨hmanager, hrounds, hgetters⟩ := hact
      refine ⟨[], ?_, ?_, ?_⟩
      · rw [List.append_nil, hmanager]
        exact hs.run
      · rw [List.append_nil, hrounds]
        exact hs.rounds
      · rw [List.append_nil, hmanager]
        exact fun hrunning hnone => hs.initialized hrunning fun g hg => hnone g (hgetters g hg)
  | @getter n e made order g object hg hobject hcalled =>
      refine ⟨[], ?_⟩
      rw [List.append_nil]
      refine ⟨hs.run, hs.rounds, fun hrunning hnone => hs.initialized hrunning fun g' hg' hpurpose => ?_⟩
      -- the getter that goes on keeps its purpose
      have hmem : (Purpose.inventory, g'.origin) ∈ d.pending :=
        List.mem_map.mpr ⟨g', hg', Prod.ext hpurpose rfl⟩
      have hpending : ({ d with getters := d.getters.set n { g with object } } : Daemon).pending = d.pending :=
        pending_set hg
      rw [← hpending] at hmem
      obtain ⟨g'', hg'', heq⟩ := List.mem_map.mp hmem
      exact hnone g'' hg'' (Prod.mk.inj heq).1
  | @looked n e made order g object data manager hg hpurpose hobject hdata hmanager =>
      refine ⟨[_], hs.run.snoc hmanager, ?_, fun _ hnone => ?_⟩
      · rw [List.countP_append, ← hs.rounds]
        rfl
      · exact absurd rfl (hnone ⟨g.origin, .inventory, .start 0⟩ (List.mem_append_right _ List.mem_cons_self))
  | @round n e made order g object data manager hg hpurpose hobject hdata hmanager =>
      refine ⟨[_], hs.run.snoc hmanager, ?_, fun hrunning _ i hi => ?_⟩
      · rw [List.countP_append, ← hs.rounds, List.length_append]
        rfl
      · rw [Manager.length_of_step hmanager nofun] at hi
        exact initialized_of_step hs.run hmanager hi (.inr ⟨rfl, hrunning⟩)
  | @drive e manager hinternal hmanager =>
      have hendpoints : ∀ mctpEndpoints made, e ≠ .endpoints mctpEndpoints made := by
        rintro _ _ rfl
        cases hinternal
      have hinv : Manager.isInventory e = false := by
        cases e with
        | inventory => cases hinternal
        | endpoints | writeFault | erase | expire | tick | execute | deliver => rfl
      refine ⟨[e], hs.run.snoc hmanager, ?_, fun hrunning hnone i hi => ?_⟩
      · rw [List.countP_append, ← hs.rounds, List.countP_singleton, hinv]
        rfl
      · rw [Manager.length_of_step hmanager hendpoints] at hi
        exact initialized_of_step hs.run hmanager hi
          (.inl (hs.initialized (turn_of_step h).1 hnone i hi))

theorem served_of_run {es : List Event} (hrun : Run (Step cfg) init es d) : ∃ es', Served cfg es' d := by
  induction hrun with
  | nil => exact ⟨[], served_init⟩
  | snoc _ h ih =>
      obtain ⟨es', hs⟩ := ih
      obtain ⟨more, hs'⟩ := served_of_step hs h
      exact ⟨es' ++ more, hs'⟩

/-! ## Signals and rounds -/

def isSignal : Entry → Bool
  | .signal _ => true
  | .ran _ => false

/-- The actions that have been run and those that are still to come, against the signals. -/
theorem budget_of_step {m m' : Main} {e : Main.Event} (h : m.Step e m')
    (hle : (actions m.history).length + m.filterTimer.handlers.length + m.posted.toNat ≤ m.history.countP isSignal + 1) :
    (actions m'.history).length + m'.filterTimer.handlers.length + m'.posted.toNat ≤
      m'.history.countP isSignal + 1 := by
  have harm : ∀ a, (m.filterTimer.arm a).handlers.length ≤ m.filterTimer.handlers.length + 1 := by
    intro a
    simp only [SteadyTimer.handlers, SteadyTimer.arm, List.length_append, Option.toList_some, List.length_singleton]
    omega
  cases e with
  | runPosted =>
      change (if m.posted then _ else none) = some m' at h
      split at h
      · next hposted =>
          obtain rfl := Option.some.inj h
          rw [hposted] at hle
          simp only [Main.record, actions_append_ran, List.length_append, List.length_singleton, List.countP_append,
            List.countP_singleton, isSignal, Bool.toNat_true, Bool.toNat_false] at hle ⊢
          simp only [Bool.false_eq_true, if_false]
          omega
      · cases h
  | emHandler =>
      obtain rfl := Option.some.inj h
      have hone := harm .collectInventory
      simp only [Main.arm, Main.record, actions_append_signal, List.countP_append, List.countP_singleton, isSignal,
        if_true]
      omega
  | eventHandler =>
      obtain rfl := Option.some.inj h
      have hone := harm .createDrives
      simp only [Main.arm, Main.record, actions_append_signal, List.countP_append, List.countP_singleton, isSignal,
        if_true]
      omega
  | ifaceRemovedMatch =>
      obtain rfl := Option.some.inj h
      simp only [SteadyTimer.handlers, SteadyTimer.cancel, List.length_append, Option.toList_none,
        List.length_nil] at hle ⊢
      omega
  | expire =>
      obtain ⟨t, ht, rfl⟩ := Option.map_eq_some_iff.mp h
      simp only [SteadyTimer.handlers_expire ht]
      exact hle
  | runFired =>
      obtain ⟨⟨a, t⟩, ht, rfl⟩ := Option.map_eq_some_iff.mp h
      rw [SteadyTimer.handlers_take ht, List.length_cons] at hle
      simp only [Main.record, actions_append_ran, List.length_append, List.length_singleton, List.countP_append,
        List.countP_singleton, isSignal, Bool.false_eq_true, if_false]
      omega

theorem main_of_step (h : d.Step cfg e d') :
    d'.main = d.main ∨ ∃ e', e = .main e' ∧ d.main.Step e' d'.main := by
  cases (turn_of_step h).2 with
  | main hmain => exact .inr ⟨_, rfl, hmain⟩
  | getter | looked | round | drive => exact .inl rfl

theorem rounds_le {es : List Event} (hrun : Run (Step cfg) init es d) :
    d.rounds.length ≤ d.main.history.countP isSignal + 1 := by
  have hbudget := hrun.invariant
    (fun d => (actions d.main.history).length + d.main.filterTimer.handlers.length + d.main.posted.toNat ≤
      d.main.history.countP isSignal + 1) (Nat.le_refl _) fun d e d' hle h => by
        rcases main_of_step h with hsame | ⟨e', -, hmain⟩
        · rw [hsame]
          exact hle
        · exact budget_of_step hmain hle
  have hperm := (accounted_of_run hrun).rounds.length_eq
  rw [List.length_append, List.length_range] at hperm
  omega

/-- The replies of the mapper and of one endpoint. -/
def firstEndpoint : List GetObjects.Event :=
  [.mapperReply 0 (some [("/mctp/0/10", [("mctpd", [mctpEpInterface, unixSocket, decoratorI2CDevice])])]),
    .pathReply ⟨"/mctp/0/10", mctpEpInterface, "mctpd", 5⟩
      (some ((FlatMap.empty.insert "EID" (.uint64 10)).insert "SupportedMessageTypes" (.bytes [0, 4]))),
    .pathReply ⟨"/mctp/0/10", unixSocket, "mctpd", 5⟩ (some (FlatMap.empty.insert "Address" (.bytes [0, 109]))),
    .pathReply ⟨"/mctp/0/10", decoratorI2CDevice, "mctpd", 5⟩ (some (FlatMap.empty.insert "Bus" (.uint32 3)))]

/-- A reply for the only getter, with the drive of endpoint 10 for the callback. -/
def firstReply (order : List Nat) (e : GetObjects.Event) : Event :=
  .getter 0 e (fun _ => Manager.firstConstruction) order

/-- The start, which finds one endpoint, and then a signal after which the mapper finds nothing more. -/
def firstRun : List Event :=
  .main .runPosted :: firstEndpoint.map (firstReply []) ++
    [firstReply [0] (.mapperReply 0 none), .main .eventHandler, .main .expire, .main .runFired,
      firstReply [] (.mapperReply 0 none), firstReply [0] (.mapperReply 0 none)]

/-- **Initialization.** Whenever no getter collects the inventory and the program has not aborted, `handleEmEndpoints` has
initialized each drive since it was constructed, and not more often than there were signals, and once more. -/
theorem initialized_of_quiet {es : List Event} (hrun : Run (Step cfg) init es d) (hrunning : d.manager.aborted = false)
    (hquiet : ∀ g ∈ d.getters, g.purpose ≠ .inventory) {i : Nat} (hi : i < d.manager.members.length) :
    ∃ es' args k ds p, Manager.Life cfg es' d.manager i args k ds p ∧ 0 < ds.countP Manager.isInitialize ∧
      ds.countP Manager.isInitialize ≤ d.main.history.countP isSignal + 1 := by
  obtain ⟨es', hs⟩ := served_of_run hrun
  obtain ⟨args, k, ds, p, hlife, hpos⟩ := hs.initialized hrunning hquiet i hi
  refine ⟨es', args, k, ds, p, hlife, hpos, Nat.le_trans ?_ (rounds_le hrun)⟩
  obtain ⟨before, after, m₀, hes, -, -, -, hcount, -⟩ := hlife.born
  rw [hcount hrunning, hs.rounds, hes, List.countP_append]
  exact Nat.le_add_left _ _

/-- The theorem after `firstRun`. -/
theorem initialized_of_quiet_first : ∃ d es' args k ds p, Run (Step .standard) init firstRun d ∧
    Manager.Life .standard es' d.manager 0 args k ds p ∧ 0 < ds.countP Manager.isInitialize ∧
      ds.countP Manager.isInitialize ≤ d.main.history.countP isSignal + 1 := by
  have hfacts : (firstRun.foldlM (fun (d : Daemon) e => d.next .standard e) init).any (fun d =>
      !d.manager.aborted && d.getters.isEmpty && decide (0 < d.manager.members.length)) = true := by
    decide +kernel
  obtain ⟨d, hd, hstate⟩ := (Option.any_eq_true _ _).mp hfacts
  simp only [Bool.and_eq_true, Bool.not_eq_true', List.isEmpty_iff, decide_eq_true_eq] at hstate
  obtain ⟨⟨hrunning, hgetters⟩, hlength⟩ := hstate
  have hrun : Run (Step .standard) init firstRun d := Run.of_foldlM hd
  obtain ⟨es', args, k, ds, p, hlife, hpos, hle⟩ := initialized_of_quiet hrun hrunning (by simp [hgetters]) hlength
  exact ⟨d, es', args, k, ds, p, hrun, hlife, hpos, hle⟩

/-- The step throws away the wait of a signal. -/
def Discards (d : Daemon) : Event → Prop
  | .main e => d.main.Discards e
  | .getter .. | .drive _ => False

instance (d : Daemon) (e : Event) : Decidable (d.Discards e) :=
  match e with
  | .main e => inferInstanceAs (Decidable (d.main.Discards e))
  | .getter .. | .drive _ => inferInstanceAs (Decidable False)

end Daemon
end NvmeManager
