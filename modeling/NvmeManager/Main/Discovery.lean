import NvmeManager.Lib.Run
import NvmeManager.Lib.SteadyTimer

/-!
# Debouncing the discovery

Two signal handlers of `main` arm `filterTimer`, each for an action of its own, and a third cancels it.

* `Main`, `Main.next` : the timer, the handler posted before the loop starts, and the history of signals and actions;
* `Discovered` : every signal of a history is followed by an action that serves it; `unserved` computes the signals that
  are not, and `mem_unserved` says so;
* `Main.Discards` : the steps that throw away the one pending action that would serve a signal;
* `Main.Covered` : the invariant of the runs without such a step; `discovered_of_idle` is the result about these runs,
  and `lost_of_discards` continues any such step to a lost signal.
-/

namespace NvmeManager

/-- The signals that call for an action: a new MCTP endpoint, and a new inventory item. -/
inductive Signal
  | mctpAdded
  | inventoryAdded
  deriving DecidableEq, Repr

/-- What the handler of `filterTimer` does. -/
inductive Action
  | createDrives
  | collectInventory
  deriving DecidableEq, Repr

/-- `createDrives` ends in `collectInventory`, so it serves both signals. -/
def Action.serves : Action → Signal → Bool
  | createDrives, _ => true
  | collectInventory, .inventoryAdded => true
  | collectInventory, .mctpAdded => false

/-- What has happened: a signal was received, or an action was run. -/
inductive Entry
  | signal (s : Signal)
  | ran (a : Action)
  deriving DecidableEq, Repr

/-! ## Histories -/

/-- Every signal is followed by an action that serves it. -/
def Discovered (h : List Entry) : Prop :=
  ∀ pre s post, h = pre ++ .signal s :: post → ∃ a, .ran a ∈ post ∧ a.serves s = true

/-- The signals that wait for an action, after one more entry. -/
def afterEntry (waiting : List Signal) : Entry → List Signal
  | .signal s => waiting ++ [s]
  | .ran a => waiting.filter fun s => !a.serves s

def unserved (h : List Entry) : List Signal := h.foldl afterEntry []

@[simp] theorem unserved_nil : unserved [] = [] := rfl

@[simp] theorem unserved_signal (h : List Entry) (s : Signal) : unserved (h ++ [.signal s]) = unserved h ++ [s] := by
  simp [unserved, afterEntry]

@[simp] theorem unserved_ran (h : List Entry) (a : Action) :
    unserved (h ++ [.ran a]) = (unserved h).filter fun s => !a.serves s := by
  simp [unserved, afterEntry]

theorem append_eq_split {h pre post : List Entry} {e : Entry} {s : Signal}
    (heq : h ++ [e] = pre ++ .signal s :: post) :
    (post = [] ∧ h = pre ∧ e = .signal s) ∨ ∃ post', post = post' ++ [e] ∧ h = pre ++ .signal s :: post' := by
  rcases List.eq_nil_or_concat post with rfl | ⟨post', e', rfl⟩
  · obtain ⟨rfl, he⟩ := List.append_inj' heq rfl
    exact .inl ⟨rfl, rfl, List.singleton_inj.mp he⟩
  · rw [List.concat_eq_append] at heq ⊢
    rw [← List.cons_append, ← List.append_assoc] at heq
    obtain ⟨rfl, he⟩ := List.append_inj' heq rfl
    exact .inr ⟨post', by rw [List.singleton_inj.mp he], rfl⟩

theorem mem_unserved {h : List Entry} {s : Signal} :
    s ∈ unserved h ↔ ∃ pre post, h = pre ++ .signal s :: post ∧ ∀ a, .ran a ∈ post → a.serves s = false := by
  induction h using List.reverseRecOn with
  | nil => simp
  | append_singleton h e ih =>
      constructor
      · intro hs
        cases e with
        | signal s' =>
            rw [unserved_signal, List.mem_append, List.mem_singleton] at hs
            rcases hs with hs | rfl
            · obtain ⟨pre, post, rfl, hpost⟩ := ih.mp hs
              refine ⟨pre, post ++ [.signal s'], by simp, fun a ha => hpost a ?_⟩
              simpa using ha
            · exact ⟨h, [], rfl, nofun⟩
        | ran b =>
            rw [unserved_ran, List.mem_filter] at hs
            obtain ⟨pre, post, rfl, hpost⟩ := ih.mp hs.1
            refine ⟨pre, post ++ [.ran b], by simp, fun a ha => ?_⟩
            rw [List.mem_append, List.mem_singleton] at ha
            rcases ha with ha | ha
            · exact hpost a ha
            · obtain rfl := Entry.ran.inj ha
              simpa using hs.2
      · rintro ⟨pre, post, heq, hpost⟩
        rcases append_eq_split heq with ⟨rfl, rfl, rfl⟩ | ⟨post', rfl, rfl⟩
        · simp
        · have hs : s ∈ unserved (pre ++ .signal s :: post') :=
            ih.mpr ⟨pre, post', rfl, fun a ha => hpost a (List.mem_append_left _ ha)⟩
          cases e with
          | signal s' =>
              rw [unserved_signal]
              exact List.mem_append_left _ hs
          | ran b =>
              rw [unserved_ran, List.mem_filter]
              refine ⟨hs, ?_⟩
              rw [hpost b (by simp)]
              rfl

theorem discovered_iff {h : List Entry} : Discovered h ↔ unserved h = [] := by
  rw [List.eq_nil_iff_forall_not_mem]
  constructor
  · intro hd s hs
    obtain ⟨pre, post, heq, hpost⟩ := mem_unserved.mp hs
    obtain ⟨a, ha, hserves⟩ := hd pre s post heq
    rw [hpost a ha] at hserves
    cases hserves
  · intro hnone pre s post heq
    by_contra hlost
    refine hnone s (mem_unserved.mpr ⟨pre, post, heq, fun a ha => ?_⟩)
    rw [← Bool.not_eq_true]
    exact fun hserves => hlost ⟨a, ha, hserves⟩

/-! ## The loop -/

/-- The part of `main` that decides when drives are looked for. -/
structure Main where
  filterTimer : SteadyTimer Action
  /-- The handler posted before `io.run()` has not run yet. -/
  posted : Bool
  history : List Entry
  deriving DecidableEq, Repr

namespace Main

def init : Main := ⟨.idle, true, []⟩

/-- What the loop does next. -/
inductive Event
  | runPosted
  | emHandler
  | eventHandler
  | ifaceRemovedMatch
  | expire
  /-- The oldest handler of the timer that is ready is run. -/
  | runFired
  deriving DecidableEq, Repr

variable (m : Main)

def record (e : Entry) : Main := { m with history := m.history ++ [e] }

/-- `filterTimer.expires_from_now` and `async_wait` -/
def arm (a : Action) : Main := { m with filterTimer := m.filterTimer.arm a }

def next : Event → Option Main
  | .runPosted => if m.posted then some ({ m with posted := false }.record (.ran .createDrives)) else none
  | .emHandler => some ((m.record (.signal .inventoryAdded)).arm .collectInventory)
  | .eventHandler => some ((m.record (.signal .mctpAdded)).arm .createDrives)
  | .ifaceRemovedMatch => some { m with filterTimer := m.filterTimer.cancel }
  | .expire => m.filterTimer.expire.map fun t => { m with filterTimer := t }
  | .runFired => m.filterTimer.take?.map fun p => { m with filterTimer := p.2 }.record (.ran p.1)

def Step (m : Main) (e : Event) (m' : Main) : Prop := m.next e = some m'

/-! ## Lost signals -/

/-- No handler that is ready to run will serve the signal, so nothing but the pending wait can. -/
def OnlyWait (s : Signal) : Prop := s ∈ unserved m.history ∧ ∀ a ∈ m.filterTimer.fired, a.serves s = false

instance (s : Signal) : Decidable (m.OnlyWait s) := inferInstanceAs (Decidable (_ ∧ _))

/-- The step throws away the pending wait of a signal that nothing else will serve: an inventory signal replaces the wait
for an endpoint's drive, or a removed endpoint cancels the wait. -/
def Discards : Event → Prop
  | .emHandler => m.OnlyWait .mctpAdded
  | .ifaceRemovedMatch => m.OnlyWait .mctpAdded ∨ m.OnlyWait .inventoryAdded
  | _ => False

instance (e : Event) : Decidable (m.Discards e) :=
  match e with
  | .emHandler => inferInstanceAs (Decidable (m.OnlyWait _))
  | .ifaceRemovedMatch => inferInstanceAs (Decidable (_ ∨ _))
  | .runPosted | .eventHandler | .expire | .runFired => inferInstanceAs (Decidable False)

/-- Every signal that has not been served will be, by a handler of the timer. -/
def Covered : Prop := ∀ s ∈ unserved m.history, ∃ a ∈ m.filterTimer.handlers, a.serves s = true

variable {m} {m' : Main} {e : Event}

theorem covered_init : init.Covered := nofun

/-- A signal with a ready handler stays covered when the pending wait changes. -/
theorem exists_fired {s : Signal} (hs : s ∈ unserved m.history) (h : ¬ m.OnlyWait s) :
    ∃ a ∈ m.filterTimer.fired, a.serves s = true := by
  by_contra hnone
  refine h ⟨hs, fun a ha => ?_⟩
  rw [← Bool.not_eq_true]
  exact fun hserves => hnone ⟨a, ha, hserves⟩

theorem covered_of_step (hc : m.Covered) (hkeep : ¬ m.Discards e) (h : m.Step e m') : m'.Covered := by
  cases e with
  | runPosted =>
      change (if m.posted then _ else none) = some m' at h
      split at h
      · obtain rfl := Option.some.inj h
        intro s hs
        simp [record, Action.serves] at hs
      · cases h
  | emHandler =>
      obtain rfl := Option.some.inj h
      intro s hs
      cases s with
      | inventoryAdded => exact ⟨.collectInventory, SteadyTimer.mem_handlers_arm _ _, rfl⟩
      | mctpAdded =>
          have hold : Signal.mctpAdded ∈ unserved m.history := by
            simpa [arm, record] using hs
          obtain ⟨a, ha, hserves⟩ := exists_fired hold hkeep
          exact ⟨a, List.mem_append_left _ ha, hserves⟩
  | eventHandler =>
      obtain rfl := Option.some.inj h
      exact fun s _ => ⟨.createDrives, SteadyTimer.mem_handlers_arm _ _, rfl⟩
  | ifaceRemovedMatch =>
      obtain rfl := Option.some.inj h
      intro s hs
      have hfired : ¬ m.OnlyWait s := by
        cases s with
        | mctpAdded => exact fun hw => hkeep (.inl hw)
        | inventoryAdded => exact fun hw => hkeep (.inr hw)
      obtain ⟨a, ha, hserves⟩ := exists_fired hs hfired
      exact ⟨a, List.mem_append_left _ ha, hserves⟩
  | expire =>
      obtain ⟨t, ht, rfl⟩ := Option.map_eq_some_iff.mp h
      intro s hs
      obtain ⟨a, ha, hserves⟩ := hc s hs
      refine ⟨a, ?_, hserves⟩
      change a ∈ t.handlers
      rwa [SteadyTimer.handlers_expire ht]
  | runFired =>
      obtain ⟨⟨b, t⟩, ht, rfl⟩ := Option.map_eq_some_iff.mp h
      intro s hs
      simp only [record, unserved_ran, List.mem_filter] at hs
      obtain ⟨a, ha, hserves⟩ := hc s hs.1
      rw [SteadyTimer.handlers_take ht, List.mem_cons] at ha
      rcases ha with rfl | ha
      · rw [hserves] at hs
        exact absurd hs.2 (by decide)
      · exact ⟨a, ha, hserves⟩

theorem covered_of_run {es : List Event} (hrun : Run (guarded (fun m e => ¬ m.Discards e) Step) init es m) :
    m.Covered :=
  hrun.guarded_invariant Covered covered_init fun _ _ _ hc hkeep h => covered_of_step hc hkeep h

/-! ## What a discarded wait leads to -/

/-- A signal that no handler serves stays unserved while the timer runs out. -/
theorem lost_of_fired {s : Signal} (fired : List Action) (hfired : m.filterTimer.fired = fired)
    (hwait : m.filterTimer.wait = none) (hs : s ∈ unserved m.history) (hnone : ∀ a ∈ fired, a.serves s = false) :
    ∃ es m', Run Step m es m' ∧ ¬ m'.filterTimer.Live ∧ s ∈ unserved m'.history := by
  induction fired generalizing m with
  | nil =>
      refine ⟨[], m, .nil, ?_, hs⟩
      rw [SteadyTimer.live_iff, SteadyTimer.handlers, hfired, hwait]
      exact not_not_intro rfl
  | cons a rest ih =>
      let m₁ : Main := { m with filterTimer := { m.filterTimer with fired := rest } }.record (.ran a)
      have hstep : m.Step .runFired m₁ := by
        unfold Step next SteadyTimer.take?
        rw [hfired]
        rfl
      have hfired₁ : m₁.filterTimer.fired = rest := rfl
      have hs₁ : s ∈ unserved m₁.history := by
        rw [show m₁.history = m.history ++ [.ran a] from rfl, unserved_ran, List.mem_filter]
        refine ⟨hs, ?_⟩
        rw [hnone a List.mem_cons_self]
        rfl
      obtain ⟨es, m', hrun, hidle, hlost⟩ :=
        ih hfired₁ hwait hs₁ fun b hb => hnone b (List.mem_cons_of_mem _ hb)
      exact ⟨[] ++ [.runFired] ++ es, m', (Run.nil.snoc hstep).append hrun, hidle, hlost⟩

theorem lost_of_handlers {s : Signal} (hs : s ∈ unserved m.history)
    (hnone : ∀ a ∈ m.filterTimer.handlers, a.serves s = false) :
    ∃ es m', Run Step m es m' ∧ ¬ m'.filterTimer.Live ∧ s ∈ unserved m'.history := by
  cases hwait : m.filterTimer.wait with
  | none =>
      refine lost_of_fired m.filterTimer.fired rfl hwait hs fun a ha => hnone a ?_
      exact List.mem_append_left _ ha
  | some b =>
      let t : SteadyTimer Action := ⟨none, m.filterTimer.fired ++ [b]⟩
      have hexpire : m.filterTimer.expire = some t := by
        unfold SteadyTimer.expire
        rw [hwait]
      have hstep : m.Step .expire { m with filterTimer := t } := by
        unfold Step next
        rw [hexpire]
        rfl
      have hfired : ({ m with filterTimer := t } : Main).filterTimer.fired = m.filterTimer.handlers := by
        rw [← SteadyTimer.handlers_expire hexpire]
        simp [SteadyTimer.handlers, t]
      obtain ⟨es, m', hrun, hidle, hlost⟩ := lost_of_fired m.filterTimer.handlers hfired rfl hs hnone
      exact ⟨[] ++ [.expire] ++ es, m', (Run.nil.snoc hstep).append hrun, hidle, hlost⟩

/-- Any discarding step can be continued to a state with an idle timer and a lost signal. -/
theorem lost_of_discards (hdiscards : m.Discards e) (h : m.Step e m') :
    ∃ es m'', Run Step m' es m'' ∧ ¬ m''.filterTimer.Live ∧ ¬ Discovered m''.history := by
  obtain ⟨s, hs, hnone⟩ :
      ∃ s, s ∈ unserved m'.history ∧ ∀ a ∈ m'.filterTimer.handlers, a.serves s = false := by
    cases e with
    | emHandler =>
        obtain rfl := Option.some.inj h
        refine ⟨.mctpAdded, ?_, ?_⟩
        · simpa [arm, record] using hdiscards.1
        · intro a ha
          rcases List.mem_append.mp ha with ha | ha
          · exact hdiscards.2 a ha
          · obtain rfl : a = .collectInventory := by simpa [arm, SteadyTimer.arm] using ha
            rfl
    | ifaceRemovedMatch =>
        obtain rfl := Option.some.inj h
        rcases hdiscards with hw | hw
        · exact ⟨_, hw.1, fun a ha => hw.2 a (by simpa [SteadyTimer.handlers, SteadyTimer.cancel] using ha)⟩
        · exact ⟨_, hw.1, fun a ha => hw.2 a (by simpa [SteadyTimer.handlers, SteadyTimer.cancel] using ha)⟩
    | runPosted | eventHandler | expire | runFired => exact hdiscards.elim
  obtain ⟨es, m'', hrun, hidle, hlost⟩ := lost_of_handlers hs hnone
  refine ⟨es, m'', hrun, hidle, fun hd => ?_⟩
  rw [discovered_iff.mp hd] at hlost
  cases hlost

theorem discovered_of_covered (hcovered : m.Covered) (hidle : ¬ m.filterTimer.Live) : Discovered m.history := by
  rw [discovered_iff, List.eq_nil_iff_forall_not_mem]
  intro s hs
  obtain ⟨a, ha, _⟩ := hcovered s hs
  rw [SteadyTimer.live_iff, not_not] at hidle
  rw [hidle] at ha
  cases ha

/-- **Discovery.** In a run that discards no wait a signal needs, whenever the timer is idle every signal received so
far has been served. -/
theorem discovered_of_idle {es : List Event} (hrun : Run (guarded (fun m e => ¬ m.Discards e) Step) init es m)
    (hidle : ¬ m.filterTimer.Live) : Discovered m.history :=
  discovered_of_covered (covered_of_run hrun) hidle

/-- The theorem at a run with an endpoint, and an inventory item after its drive has been looked for. -/
theorem discovered_of_idle_both : Discovered
    [.ran .createDrives, .signal .mctpAdded, .ran .createDrives, .signal .inventoryAdded, .ran .collectInventory] := by
  have hrun : Run (guarded (fun m e => ¬ m.Discards e) Step) init
      [.runPosted, .eventHandler, .expire, .runFired, .emHandler, .expire, .runFired]
      ⟨.idle, false, [.ran .createDrives, .signal .mctpAdded, .ran .createDrives, .signal .inventoryAdded,
        .ran .collectInventory]⟩ := Run.guarded_of_foldlM (by decide)
  exact discovered_of_idle hrun (by decide)

/-- An inventory item within a second of a new endpoint: the drive of the endpoint is not looked for. -/
theorem endpoint_lost : ∃ m, Run Step init [.runPosted, .eventHandler, .emHandler, .expire, .runFired] m ∧
    ¬ m.filterTimer.Live ∧ ¬ Discovered m.history := by
  refine ⟨⟨.idle, false, [.ran .createDrives, .signal .mctpAdded, .signal .inventoryAdded,
    .ran .collectInventory]⟩, Run.of_foldlM (by decide), by decide, ?_⟩
  rw [discovered_iff]
  decide

end Main
end NvmeManager
