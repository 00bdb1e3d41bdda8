import NvmeManager.Main.Endpoints

/-!
# The types of the properties

Both handlers read properties with `std::get`, which throws on a value of another type.

* `EndpointUnexpected` : the endpoints in which the handler comes upon a property of an unexpected type; the properties
  behind one that is missing are not read;
* `typedObjects`, `Undisturbed` : the objects without such a property, and a bus that does not depend on the others;
* `SkipsEndpoints`, `SkipsObjects` : a handler completes, and does what it does without the objects that have such a
  property;
* `skips_iff` : that is so exactly for the replies without an object in which the handler comes upon one, and in which no
  object that has one leaves its bus behind.
-/

namespace NvmeManager

/-! ## The inventory -/

def busAfter (bus : UInt64) (objects : List (String × DbusObject)) : UInt64 :=
  objects.foldl (fun bus object => object.2.named.getD bus) bus

def typedObjects (objects : List (String × DbusObject)) : List (String × DbusObject) :=
  objects.filter fun object => object.2.WellTyped

/-- Wherever the loop gets to the drives, the last bus that has been named is the same without the other objects. -/
def Undisturbed (bus bus' : UInt64) (objects : List (String × DbusObject)) : Prop :=
  ∀ seen object, seen ++ [object] <+: objects → object.2.Reaches →
    busAfter bus (seen ++ [object]) = busAfter bus' (typedObjects (seen ++ [object]))

section
variable {vars vars' : EmVars} {bus bus' : UInt64} {object : String × DbusObject} {objects : List (String × DbusObject)}

/-- The form factor and the association do not depend on the bus. -/
theorem EmVars.after_congr (data : DbusObject) (hform : vars.form = vars'.form)
    (hassoc : vars.driveAssoc = vars'.driveAssoc) :
    (vars.after data).form = (vars'.after data).form ∧ (vars.after data).driveAssoc = (vars'.after data).driveAssoc := by
  unfold EmVars.after
  by_cases hreaches : data.Reaches
  · rw [if_pos hreaches, if_pos hreaches, hform, hassoc]
    exact ⟨rfl, rfl⟩
  · rw [if_neg hreaches, if_neg hreaches]
    exact ⟨hform, hassoc⟩

theorem EmVars.ext_bus (hform : vars.form = vars'.form) (hassoc : vars.driveAssoc = vars'.driveAssoc)
    (hbus : vars.bus = vars'.bus) : vars = vars' := by
  cases vars
  cases vars'
  cases hform
  cases hassoc
  cases hbus
  rfl

/-- An object that does not get to the drives leaves nothing behind but its bus. -/
theorem EmVars.after_of_not_reaches {data : DbusObject} (h : ¬ data.Reaches) :
    vars.after data = { vars with bus := data.named.getD vars.bus } := if_neg h

theorem undisturbed_cons : Undisturbed bus bus' (object :: objects) ↔
    (object.2.Reaches → object.2.named.getD bus = busAfter bus' (typedObjects [object])) ∧
      Undisturbed (object.2.named.getD bus) (busAfter bus' (typedObjects [object])) objects := by
  have hafter : ∀ rest, busAfter bus' (typedObjects (object :: rest)) =
      busAfter (busAfter bus' (typedObjects [object])) (typedObjects rest) := fun rest => by
    rw [← List.singleton_append, typedObjects, List.filter_append, busAfter, List.foldl_append]
    rfl
  unfold Undisturbed
  constructor
  · intro h
    refine ⟨fun hreaches => ?_, fun seen next hnext hreaches => ?_⟩
    · exact h [] object (List.prefix_append _ _) hreaches
    · have heq := h (object :: seen) next ((List.prefix_cons_inj object).mpr hnext) hreaches
      rw [List.cons_append, hafter] at heq
      exact heq
  · rintro ⟨hhead, htail⟩ seen next hnext hreaches
    cases seen with
    | nil =>
        obtain rfl := (List.cons_prefix_cons.mp hnext).1
        exact hhead hreaches
    | cons first seen =>
        obtain ⟨rfl, hrest⟩ := List.cons_prefix_cons.mp hnext
        rw [List.cons_append, hafter]
        exact htail seen next hrest hreaches

theorem emTrace_unexpected (h : ∃ object ∈ objects, object.2.EmUnexpected) : emTrace vars objects = none := by
  induction objects generalizing vars with
  | nil =>
      obtain ⟨object, hmem, _⟩ := h
      cases hmem
  | cons object rest ih =>
      rw [emTrace]
      by_cases hobject : object.2.EmUnexpected
      · rw [EmVars.emObject_unexpected hobject]
        rfl
      · rw [EmVars.emObject_expected hobject]
        obtain ⟨other, hmem, hother⟩ := h
        have hrest : other ∈ rest := by
          rcases List.mem_cons.mp hmem with rfl | hmem
          · exact absurd hother hobject
          · exact hmem
        dsimp only [Option.bind_some]
        rw [ih ⟨other, hrest, hother⟩]
        rfl

/-- The loop over all the objects, and the one over those without a property of an unexpected type. -/
theorem emTrace_filter (vars vars' : EmVars) (h : ∀ object ∈ objects, ¬ object.2.EmUnexpected) (hform : vars.form = vars'.form)
    (hassoc : vars.driveAssoc = vars'.driveAssoc) :
    ∃ last last' visits visits', emTrace vars objects = some (last, visits) ∧
      emTrace vars' (typedObjects objects) = some (last', visits') ∧
      (visits = visits' ↔ Undisturbed vars.bus vars'.bus objects) := by
  induction objects generalizing vars vars' with
  | nil =>
      refine ⟨vars, vars', [], [], rfl, rfl, iff_of_true rfl fun seen object hprefix => ?_⟩
      cases seen with
      | nil => cases List.prefix_nil.mp hprefix
      | cons => cases List.prefix_nil.mp hprefix
  | cons object rest ih =>
      have hobject := h object List.mem_cons_self
      have hrest : ∀ o ∈ rest, ¬ o.2.EmUnexpected := fun o ho => h o (List.mem_cons_of_mem _ ho)
      rw [emTrace, EmVars.emObject_expected hobject, Option.bind_some, undisturbed_cons]
      dsimp only
      by_cases htyped : object.2.WellTyped
      · -- both loops read the object
        have hkept : ∀ os, typedObjects (object :: os) = object :: typedObjects os := fun os =>
          List.filter_cons_of_pos (decide_eq_true htyped)
        have hbus : busAfter vars'.bus (typedObjects [object]) = object.2.named.getD vars'.bus := by
          rw [hkept]
          rfl
        obtain ⟨hform', hassoc'⟩ := EmVars.after_congr object.2 hform hassoc
        obtain ⟨last, last', visits, visits', htrace, htrace', hiff⟩ := ih _ _ hrest hform' hassoc'
        rw [EmVars.bus_after, EmVars.bus_after] at hiff
        rw [hkept, emTrace, EmVars.emObject_expected hobject, Option.bind_some, htrace, hbus, ← hiff]
        dsimp only
        rw [htrace']
        refine ⟨_, _, _, _, rfl, rfl, ?_⟩
        by_cases hreaches : object.2.Reaches
        · have hhead : vars.after object.2 = vars'.after object.2 ↔
              object.2.named.getD vars.bus = object.2.named.getD vars'.bus := by
            rw [← EmVars.bus_after, ← EmVars.bus_after]
            exact ⟨congrArg EmVars.bus, EmVars.ext_bus hform' hassoc'⟩
          rw [decide_eq_true hreaches, if_pos rfl, if_pos rfl, List.cons.injEq, hhead, imp_iff_right hreaches]
        · rw [decide_eq_false hreaches, if_neg (by decide), if_neg (by decide)]
          exact (and_iff_right fun hyes => absurd hyes hreaches).symm
      · -- only the first loop reads it
        have hreaches : ¬ object.2.Reaches := fun hreaches =>
          htyped (DbusObject.wellTyped_of_reaches hobject hreaches)
        have hdropped : ∀ os, typedObjects (object :: os) = typedObjects os := fun os =>
          List.filter_cons_of_neg (by simpa using htyped)
        have hbus : busAfter vars'.bus (typedObjects [object]) = vars'.bus := by
          rw [hdropped]
          rfl
        have hleft : (vars.after object.2).form = vars'.form ∧ (vars.after object.2).driveAssoc = vars'.driveAssoc := by
          rw [EmVars.after_of_not_reaches hreaches]
          exact ⟨hform, hassoc⟩
        obtain ⟨last, last', visits, visits', htrace, htrace', hiff⟩ := ih _ _ hrest hleft.1 hleft.2
        rw [EmVars.bus_after] at hiff
        rw [htrace, hdropped, hbus, ← hiff, decide_eq_false hreaches]
        refine ⟨_, _, _, _, rfl, htrace', ?_⟩
        dsimp only
        rw [if_neg (by decide)]
        exact (and_iff_right fun hyes => absurd hyes hreaches).symm

end

/-! ## The endpoints -/

namespace DbusObject
variable (data : DbusObject)

/-- An object in which `handleMCTPEndpoints` comes upon a property of an unexpected type. -/
def EndpointUnexpected : Prop :=
  ¬ data.Typed (·.uint64?) mctpEpInterface "EID" ∨ data.Offers mctpEpInterface "EID" ∧
    (¬ data.Typed (·.bytes?) mctpEpInterface "SupportedMessageTypes" ∨
      data.Offers mctpEpInterface "SupportedMessageTypes" ∧
        (¬ data.Typed (·.bytes?) unixSocket "Address" ∨ data.Offers unixSocket "Address" ∧
          (data.Speaks ∧ ¬ data.Typed (·.uint32?) decoratorI2CDevice "Bus")))

/-- The properties that the loop over the endpoints reads have their types. -/
structure EndpointWellTyped : Prop where
  eid : data.Typed (·.uint64?) mctpEpInterface "EID"
  msgTypes : data.Typed (·.bytes?) mctpEpInterface "SupportedMessageTypes"
  addr : data.Typed (·.bytes?) unixSocket "Address"
  bus : data.Typed (·.uint32?) decoratorI2CDevice "Bus"

instance : Decidable data.EndpointWellTyped :=
  decidable_of_iff (_ ∧ _ ∧ _ ∧ _) ⟨fun h => ⟨h.1, h.2.1, h.2.2.1, h.2.2.2⟩, fun h => ⟨h.1, h.2, h.3, h.4⟩⟩

end DbusObject

section
variable {cfg : Config} {data : DbusObject}

theorem endpointArgs_unexpected (h : data.EndpointUnexpected) : endpointArgs cfg data = .error .exception := by
  unfold endpointArgs readSocket readI2CBus
  rw [readEndpoint_total]
  rcases h with heid | ⟨heid', h⟩
  · rw [if_neg heid]
    rfl
  by_cases heid : data.Typed (·.uint64?) mctpEpInterface "EID"
  · rw [if_pos heid, if_pos heid']
    rcases h with htypes | ⟨htypes', h⟩
    · rw [if_neg htypes]
      rfl
    by_cases htypes : data.Typed (·.bytes?) mctpEpInterface "SupportedMessageTypes"
    · rw [if_pos htypes, if_pos htypes', readProperty_total]
      rcases h with haddr | ⟨haddr', hspeaks, hbus⟩
      · rw [if_neg haddr]
        rfl
      by_cases haddr : data.Typed (·.bytes?) unixSocket "Address"
      · rw [if_pos haddr, if_pos haddr', readProperty_total, if_neg hbus, decide_eq_true hspeaks]
        rfl
      · rw [if_neg haddr]
        rfl
    · rw [if_neg htypes]
      rfl
  · rw [if_neg heid]
    rfl

theorem endpointArgs_expected (cfg : Config) (h : ¬ data.EndpointUnexpected) :
    endpointArgs cfg data = .error .next ∨ data.EndpointWellTyped ∧ ∃ args, endpointArgs cfg data = .ok args := by
  unfold DbusObject.EndpointUnexpected at h
  obtain ⟨heid, h⟩ := not_or.mp h
  unfold endpointArgs readSocket readI2CBus
  rw [readEndpoint_total, if_pos (not_not.mp heid)]
  by_cases heid' : data.Offers mctpEpInterface "EID"
  · obtain ⟨htypes, h⟩ := not_or.mp fun hor => h ⟨heid', hor⟩
    rw [if_pos heid', if_pos (not_not.mp htypes)]
    by_cases htypes' : data.Offers mctpEpInterface "SupportedMessageTypes"
    · obtain ⟨haddr, h⟩ := not_or.mp fun hor => h ⟨htypes', hor⟩
      rw [if_pos htypes', readProperty_total, if_pos (not_not.mp haddr)]
      by_cases haddr' : data.Offers unixSocket "Address"
      · rw [if_pos haddr']
        by_cases hspeaks : data.Speaks
        · have hbus : data.Typed (·.uint32?) decoratorI2CDevice "Bus" := by
            by_contra hbus
            exact h ⟨haddr', hspeaks, hbus⟩
          rw [decide_eq_true hspeaks, readProperty_total, if_pos hbus]
          by_cases hbus' : data.Offers decoratorI2CDevice "Bus"
          · rw [if_pos hbus']
            exact .inr ⟨⟨not_not.mp heid, not_not.mp htypes, not_not.mp haddr, hbus⟩, _, rfl⟩
          · rw [if_neg hbus']
            exact .inl rfl
        · rw [decide_eq_false hspeaks]
          exact .inl rfl
      · rw [if_neg haddr']
        exact .inl rfl
    · rw [if_neg htypes']
      exact .inl rfl
  · rw [if_neg heid']
    exact .inl rfl

theorem foldlM_unexpected {objects : List (String × DbusObject)} {s : Drives}
    (h : ∃ object ∈ objects, object.2.EndpointUnexpected) : objects.foldlM (endpointStep cfg) s = none := by
  induction objects generalizing s with
  | nil =>
      obtain ⟨object, hmem, _⟩ := h
      cases hmem
  | cons object rest ih =>
      rw [List.foldlM_cons]
      unfold endpointStep
      by_cases hobject : object.2.EndpointUnexpected
      · rw [endpointArgs_unexpected hobject]
        rfl
      · obtain ⟨other, hmem, hother⟩ := h
        have hrest : ∃ o ∈ rest, o.2.EndpointUnexpected := by
          rcases List.mem_cons.mp hmem with rfl | hmem
          · exact absurd hother hobject
          · exact ⟨other, hmem, hother⟩
        rcases endpointArgs_expected cfg hobject with hnext | ⟨_, args, hargs⟩
        · rw [hnext]
          exact ih hrest
        · rw [hargs]
          exact ih hrest

/-- The loop over all the objects does what the one over those without a property of an unexpected type does. -/
theorem foldlM_filter {objects : List (String × DbusObject)} {s : Drives}
    (h : ∀ object ∈ objects, ¬ object.2.EndpointUnexpected) :
    ∃ s', objects.foldlM (endpointStep cfg) s = some s' ∧
      (objects.filter fun object => object.2.EndpointWellTyped).foldlM (endpointStep cfg) s = some s' := by
  induction objects generalizing s with
  | nil => exact ⟨s, rfl, rfl⟩
  | cons object rest ih =>
      have hrest : ∀ o ∈ rest, ¬ o.2.EndpointUnexpected := fun o ho => h o (List.mem_cons_of_mem _ ho)
      rw [List.foldlM_cons, endpointStep]
      rcases endpointArgs_expected cfg (h object List.mem_cons_self) with hnext | ⟨htyped, args, hargs⟩
      · obtain ⟨s', hs, hs'⟩ := ih (s := s) hrest
        rw [hnext]
        refine ⟨s', hs, ?_⟩
        by_cases htyped : object.2.EndpointWellTyped
        · rw [List.filter_cons, if_pos (decide_eq_true htyped), List.foldlM_cons, endpointStep, hnext]
          exact hs'
        · rw [List.filter_cons, if_neg (by simpa using htyped)]
          exact hs'
      · obtain ⟨s', hs, hs'⟩ := ih (s := s.add args) hrest
        rw [hargs, List.filter_cons, if_pos (decide_eq_true htyped), List.foldlM_cons, endpointStep, hargs]
        exact ⟨s', hs, hs'⟩

end

/-! ## Skipping -/

/-- The loop over the endpoints completes, and leaves the drives that it leaves without the objects that have a property of
an unexpected type. -/
def SkipsEndpoints (cfg : Config) (s : Drives) (mctpEndpoints : ManagedObjectType) : Prop :=
  ∃ s', handleMCTPEndpoints cfg s mctpEndpoints = some s' ∧
    handleMCTPEndpoints cfg s (mctpEndpoints.filter fun object => object.2.EndpointWellTyped) = some s'

/-- The loop over the inventory completes, and gets to the drives with the values with which it gets there without the
objects that have a property of an unexpected type. -/
def SkipsObjects (objData : ManagedObjectType) : Prop :=
  ∃ last last' visits, emTrace .init objData.entries = some (last, visits) ∧
    emTrace .init (objData.filter fun object => object.2.WellTyped).entries = some (last', visits)

section
variable {cfg : Config}

theorem skipsEndpoints_iff (s : Drives) (mctpEndpoints : ManagedObjectType) :
    SkipsEndpoints cfg s mctpEndpoints ↔ ∀ object ∈ mctpEndpoints.entries, ¬ object.2.EndpointUnexpected := by
  constructor
  · rintro ⟨s', hs, _⟩ object hmem hobject
    unfold handleMCTPEndpoints at hs
    rw [foldlM_unexpected ⟨object, hmem, hobject⟩] at hs
    cases hs
  · exact fun h => foldlM_filter h

theorem skipsObjects_iff (objData : ManagedObjectType) : SkipsObjects objData ↔
    (∀ object ∈ objData.entries, ¬ object.2.EmUnexpected) ∧ Undisturbed EmVars.init.bus EmVars.init.bus objData.entries := by
  constructor
  · rintro ⟨last, last', visits, htrace, htrace'⟩
    have hexpected : ∀ object ∈ objData.entries, ¬ object.2.EmUnexpected := by
      intro object hmem hobject
      rw [emTrace_unexpected ⟨object, hmem, hobject⟩] at htrace
      cases htrace
    refine ⟨hexpected, ?_⟩
    obtain ⟨_, _, vs, vs', hvs, hvs', hiff⟩ := emTrace_filter .init .init hexpected rfl rfl
    rw [← hiff]
    have hleft := Option.some.inj (hvs.symm.trans htrace)
    have hright := Option.some.inj (hvs'.symm.trans htrace')
    exact (congrArg Prod.snd hleft).trans (congrArg Prod.snd hright).symm
  · rintro ⟨hexpected, hundisturbed⟩
    obtain ⟨last, last', vs, vs', hvs, hvs', hiff⟩ := emTrace_filter .init .init hexpected rfl rfl
    obtain rfl := hiff.mpr hundisturbed
    exact ⟨last, last', vs, hvs, hvs'⟩

theorem handleEmEndpoints_of_skips {objData : ManagedObjectType} (h : SkipsObjects objData) (driveMap : List NVMeDevice) :
    ∃ drives, handleEmEndpoints cfg objData driveMap = some drives ∧
      handleEmEndpoints cfg (objData.filter fun object => object.2.WellTyped) driveMap = some drives := by
  obtain ⟨last, last', visits, htrace, htrace'⟩ := h
  refine ⟨driveMap.map fun d => (d.visitAll visits).initializeDrive cfg, ?_, ?_⟩
  · rw [handleEmEndpoints_eq, htrace]
    rfl
  · rw [handleEmEndpoints_eq, htrace']
    rfl

/-- **Unexpected types.** The handlers skip the objects that have a property of an unexpected type exactly where they come
upon none, and where none of these objects leaves its bus behind. -/
theorem skips_iff (s : Drives) (mctpEndpoints objData : ManagedObjectType) :
    (SkipsEndpoints cfg s mctpEndpoints ↔ ∀ object ∈ mctpEndpoints.entries, ¬ object.2.EndpointUnexpected) ∧
      (SkipsObjects objData ↔ (∀ object ∈ objData.entries, ¬ object.2.EmUnexpected) ∧
        Undisturbed EmVars.init.bus EmVars.init.bus objData.entries) ∧
      (SkipsObjects objData → ∀ driveMap, ∃ drives, handleEmEndpoints cfg objData driveMap = some drives ∧
        handleEmEndpoints cfg (objData.filter fun object => object.2.WellTyped) driveMap = some drives) :=
  ⟨skipsEndpoints_iff s mctpEndpoints, skipsObjects_iff objData, fun h driveMap => handleEmEndpoints_of_skips h driveMap⟩

end

def byteEid : ManagedObjectType :=
  FlatMap.empty.insert "/xyz/openbmc_project/mctp/0/10" (FlatMap.empty.insert mctpEpInterface
    ((FlatMap.empty.insert "EID" (.uint8 10)).insert "SupportedMessageTypes" (.bytes [0, 4])))

/-- An NVMe object whose bus has 32 bits, as that of an endpoint has. -/
def narrowBus : ManagedObjectType :=
  FlatMap.empty.insert "/xyz/openbmc_project/inventory/system/board/NVMe"
    ((FlatMap.empty.insert itemNVMe .empty).insert decoratorI2CDevice (FlatMap.empty.insert "Bus" (.uint32 3)))

/-- The exceptions are not caught. -/
theorem unexpected_type_thrown :
    (handleMCTPEndpoints .standard .empty byteEid = none ∧ ¬ SkipsEndpoints .standard .empty byteEid) ∧
      (∀ driveMap, handleEmEndpoints .standard narrowBus driveMap = none) ∧ ¬ SkipsObjects narrowBus := by
  have hendpoints : handleMCTPEndpoints .standard .empty byteEid = none := by
    rw [← Option.isNone_iff_eq_none]
    decide +kernel
  have htrace : emTrace .init narrowBus.entries = none := by
    rw [← Option.isNone_iff_eq_none]
    decide +kernel
  refine ⟨⟨hendpoints, ?_⟩, fun driveMap => ?_, ?_⟩
  · rintro ⟨s', hs, _⟩
    rw [hendpoints] at hs
    cases hs
  · rw [handleEmEndpoints_eq, htrace]
    rfl
  · rintro ⟨last, last', visits, hs, _⟩
    rw [htrace] at hs
    cases hs

end NvmeManager
