import Mathlib.Data.List.Induction
import NvmeManager.Main.Inventory

/-!
# What the inventory leaves on a drive

The variables of `handleEmEndpoints` keep what an object has named until another object names it.

* `lastBus`, `lastForm`, `lastAssoc` : what the objects so far have named last; `emVars_eq` : the variables hold just that;
* `Lawful` : as the reply is read, the objects of a drive change its values as they say, and no other object changes them;
* `Fits`, `lawful_iff` : the law holds exactly if, wherever the loop gets to the drive, what has been named last is what its
  own objects have named; `leftOn_congr_of_lawful` : what is left is a matter of these;
* `lawful_of_complete` : a reply is lawful if each NVMe object names a bus and a form factor;
* `busless_leaks` : a reply that breaks the law; `exists_leak` : every reply with an object of the drive can be led there.
-/

namespace NvmeManager

/-! ## The variables of the loop -/

namespace DbusObject
variable (data : DbusObject)

def namedForm : Option String := if data.Reaches then data.ownForm else none

def namedAssoc : Option String := if data.Reaches then data.ownAssoc else none

variable {data}

theorem isOwn_iff {bus : UInt64} : data.isOwn bus = true ↔ data.named = some bus := by
  unfold isOwn named
  rw [Bool.and_eq_true, decide_eq_true_eq]
  split
  · next hnvme => exact and_iff_right hnvme
  · next hnvme => exact iff_of_false (fun h => hnvme h.1) nofun

end DbusObject

theorem EmVars.after_eq (vars : EmVars) (data : DbusObject) : vars.after data =
    ⟨data.named.getD vars.bus, data.namedForm.getD vars.form, data.namedAssoc.getD vars.driveAssoc⟩ := by
  unfold after DbusObject.namedForm DbusObject.namedAssoc
  by_cases hreaches : data.Reaches
  · rw [if_pos hreaches, if_pos hreaches, if_pos hreaches, DbusObject.named, if_pos hreaches.1]
  · rw [if_neg hreaches, if_neg hreaches, if_neg hreaches]
    rfl

section
variable {objects : List (String × DbusObject)} {object : String × DbusObject}

def lastNamed {α : Type} (named : DbusObject → Option α) (objects : List (String × DbusObject)) : Option α :=
  (objects.filterMap fun object => named object.2).getLast?

def lastBus : List (String × DbusObject) → Option UInt64 := lastNamed DbusObject.named
def lastForm : List (String × DbusObject) → Option String := lastNamed DbusObject.namedForm
def lastAssoc : List (String × DbusObject) → Option String := lastNamed DbusObject.namedAssoc

theorem lastNamed_snoc {α : Type} (named : DbusObject → Option α) :
    lastNamed named (objects ++ [object]) = (named object.2).or (lastNamed named objects) := by
  unfold lastNamed
  rw [List.filterMap_append, List.getLast?_append]
  cases hnamed : named object.2 with
  | none => simp [hnamed]
  | some a => simp [hnamed]

def emVars (objects : List (String × DbusObject)) : EmVars := objects.foldl (fun vars object => vars.after object.2) .init

theorem emVars_snoc : emVars (objects ++ [object]) = (emVars objects).after object.2 := by
  unfold emVars
  rw [List.foldl_append]
  rfl

/-- A variable holds what has been named last. -/
theorem emVars_eq (objects : List (String × DbusObject)) : emVars objects =
    ⟨(lastBus objects).getD EmVars.init.bus, (lastForm objects).getD "", (lastAssoc objects).getD ""⟩ := by
  induction objects using List.reverseRecOn with
  | nil => rfl
  | append_singleton objects object ih =>
      rw [emVars_snoc, EmVars.after_eq, ih]
      unfold lastBus lastForm lastAssoc
      rw [lastNamed_snoc, lastNamed_snoc, lastNamed_snoc, Option.getD_or, Option.getD_or, Option.getD_or]

end

/-! ## The drive after each object -/

/-- A drive, after the loop has read these objects. -/
def Leaves (d : NVMeDevice) (objects : List (String × DbusObject)) (placement : DriveFormFactor × String) : Prop :=
  ∃ vs, emTrace .init objects = some (emVars objects, vs) ∧ (d.visitAll vs).placement = placement

/-- What one more object makes of a drive: where the loop gets to the drive, it takes what has been named last. -/
def afterObject (bus : UInt64) (objects : List (String × DbusObject)) (object : String × DbusObject)
    (placement : DriveFormFactor × String) : DriveFormFactor × String :=
  if object.2.Reaches ∧ lastBus (objects ++ [object]) = some bus then
    (getDriveFormFactor (afterLast '.' ((lastForm (objects ++ [object])).getD "")),
      if (lastAssoc (objects ++ [object])).getD "" ≠ "" then (lastAssoc (objects ++ [object])).getD "" else placement.2)
  else
    placement

section
variable {cfg : Config} {objData : ManagedObjectType} {driveMap : List NVMeDevice} {i : Nat} {d : NVMeDevice}
  {objects : List (String × DbusObject)} {object : String × DbusObject} {placement : DriveFormFactor × String}

theorem bus_init (bus : UInt32) : EmVars.init.bus ≠ bus.toUInt64 := by
  intro h
  have heq := congrArg UInt64.toNat h
  have hlt := bus.toNat_lt
  have hinit : EmVars.init.bus.toNat = 18446744073709551615 := by decide
  rw [UInt32.toNat_toUInt64, hinit] at heq
  omega

theorem getD_bus_iff {bus? : Option UInt64} (bus : UInt32) :
    bus?.getD EmVars.init.bus = bus.toUInt64 ↔ bus? = some bus.toUInt64 := by
  cases bus? with
  | none => exact iff_of_false (bus_init bus) nofun
  | some b => exact Option.some_inj.symm

theorem Leaves.unique {placement' : DriveFormFactor × String} (h : Leaves d objects placement)
    (h' : Leaves d objects placement') : placement = placement' := by
  obtain ⟨vs, htrace, rfl⟩ := h
  obtain ⟨vs', htrace', rfl⟩ := h'
  rw [htrace] at htrace'
  obtain rfl := (Prod.mk.inj (Option.some.inj htrace')).2
  rfl

theorem leaves_nil (d : NVMeDevice) : Leaves d [] d.placement := ⟨[], rfl, rfl⟩

/-- The drive takes the values of the variables, if it is on the bus that they hold. -/
theorem placement_visit (objects : List (String × DbusObject)) (u : NVMeDevice) : (u.visit (emVars objects)).placement =
    if lastBus objects = some u.bus.toUInt64 then
      (getDriveFormFactor (afterLast '.' ((lastForm objects).getD "")),
        if (lastAssoc objects).getD "" ≠ "" then (lastAssoc objects).getD "" else u.placement.2)
    else u.placement := by
  unfold NVMeDevice.visit
  rw [emVars_eq]
  dsimp only
  by_cases hbus : lastBus objects = some u.bus.toUInt64
  · rw [if_pos hbus, if_neg (not_not_intro ((getD_bus_iff u.bus).mpr hbus).symm), NVMeDevice.placement_inventory]
    rfl
  · rw [if_neg hbus, if_pos]
    intro heq
    exact hbus ((getD_bus_iff u.bus).mp heq.symm)

theorem leaves_snoc (h : Leaves d objects placement) (htyped : object.2.WellTyped) :
    Leaves d (objects ++ [object]) (afterObject d.bus.toUInt64 objects object placement) := by
  obtain ⟨vs, htrace, rfl⟩ := h
  have hlast : emTrace (emVars objects) [object] =
      some (emVars (objects ++ [object]), if object.2.Reaches then [emVars (objects ++ [object])] else []) := by
    rw [emTrace, EmVars.emObject_expected htyped.expected, Option.bind_some, emVars_snoc]
    by_cases hreaches : object.2.Reaches
    · simp [hreaches, emTrace]
    · simp [hreaches, emTrace]
  refine ⟨vs ++ if object.2.Reaches then [emVars (objects ++ [object])] else [], ?_, ?_⟩
  · rw [emTrace_append, htrace, Option.bind_some, hlast, Option.map_some]
  · unfold afterObject NVMeDevice.visitAll
    rw [List.foldl_append]
    by_cases hreaches : object.2.Reaches
    · have hbus : (vs.foldl (fun d vars => d.visit vars) d).bus = d.bus := NVMeDevice.bus_visitAll vs d
      rw [if_pos hreaches, List.foldl_cons, List.foldl_nil, placement_visit, hbus]
      exact if_congr (and_iff_right hreaches).symm rfl rfl
    · rw [if_neg hreaches, if_neg fun h => hreaches h.1]
      rfl

theorem leftOn_of_leaves (hd : driveMap[i]? = some d) (h : Leaves d objData.entries placement) :
    leftOn cfg objData driveMap i = some placement := by
  obtain ⟨vs, htrace, rfl⟩ := h
  rw [leftOn_eq hd, htrace]
  rfl

theorem exists_leaves (d : NVMeDevice) (htyped : ∀ object ∈ objects, object.2.WellTyped) :
    ∃ placement, Leaves d objects placement := by
  induction objects using List.reverseRecOn with
  | nil => exact ⟨_, leaves_nil d⟩
  | append_singleton objects object ih =>
      obtain ⟨hobjects, hobject⟩ := List.forall_mem_append.mp htyped
      obtain ⟨placement, h⟩ := ih hobjects
      exact ⟨_, leaves_snoc h (hobject object (List.mem_singleton_self object))⟩

/-! ## The law -/

/-- As the objects of the reply are read, one after the other, the drive has what its own objects among them contribute. -/
def Lawful (cfg : Config) (objData : ManagedObjectType) (driveMap : List NVMeDevice) (i : Nat) (d : NVMeDevice) : Prop :=
  ∀ k, leftOn cfg (objData.take k) driveMap i = some (contributed (objData.take k).entries d)

theorem lastBus_of_isOwn {bus : UInt64} (hown : object.2.isOwn bus = true) : lastBus (objects ++ [object]) = some bus := by
  unfold lastBus
  rw [lastNamed_snoc, DbusObject.isOwn_iff.mp hown]
  rfl

/-- A lawful reply leaves the drive with what its own objects contribute. -/
theorem leftOn_of_lawful (h : Lawful cfg objData driveMap i d) :
    leftOn cfg objData driveMap i = some (contributed objData.entries d) := by
  have hall : objData.take objData.entries.length = objData := by
    unfold FlatMap.take
    congr
    exact List.take_length
  have hleft := h objData.entries.length
  rwa [hall] at hleft

/-- Between lawful replies, only a change of its own objects changes what the drive is left with. -/
theorem leftOn_congr_of_lawful {objData' : ManagedObjectType} (h : Lawful cfg objData driveMap i d)
    (h' : Lawful cfg objData' driveMap i d) (hsame : ownObjects objData' d = ownObjects objData d) :
    leftOn cfg objData' driveMap i = leftOn cfg objData driveMap i := by
  have hcontributed : contributed objData'.entries d = contributed objData.entries d := by
    unfold contributed
    unfold ownObjects at hsame
    rw [hsame]
  rw [leftOn_of_lawful h, leftOn_of_lawful h', hcontributed]

/-! ## Complete replies -/

end

/-! ## Two replies -/

section
variable {cfg : Config} {objData : ManagedObjectType} {driveMap : List NVMeDevice} {i : Nat} {d : NVMeDevice}

/-- An NVMe object with a form factor and without a bus. -/
def busless (form : String) : DbusObject :=
  (FlatMap.empty.insert itemNVMe .empty).insert itemDrive (FlatMap.empty.insert "FormFactor" (.string form))

theorem find?_busless (form interface : String) : (busless form).find? interface =
    if interface = itemDrive then some (FlatMap.empty.insert "FormFactor" (.string form))
    else if interface = itemNVMe then some .empty else none := by
  unfold busless
  rw [FlatMap.find?_insert, FlatMap.find?_insert, FlatMap.find?_empty]

theorem wellTyped_busless (form : String) : (busless form).WellTyped := by
  refine ⟨fun prop hprop => ?_, fun prop hprop v hv => ?_, fun prop hprop => ?_⟩
  · simp [find?_busless, decoratorI2CDevice, itemDrive, itemNVMe] at hprop
  · rw [find?_busless, if_pos rfl] at hprop
    obtain rfl := Option.some.inj hprop
    rw [FlatMap.find?_insert_self] at hv
    obtain rfl := Option.some.inj hv
    rfl
  · simp [find?_busless, associationDefinitions, itemDrive, itemNVMe] at hprop

theorem ownBus_busless (form : String) : (busless form).ownBus = none := by
  simp [DbusObject.ownBus, find?_busless, decoratorI2CDevice, itemDrive, itemNVMe]

theorem ownForm_busless (form : String) : (busless form).ownForm = some form := by
  simp [DbusObject.ownForm, find?_busless, BasicVariantType.string?]

theorem isOwn_busless (form : String) (bus : UInt64) : (busless form).isOwn bus = false := by
  simp [DbusObject.isOwn, ownBus_busless]

/-- An NVMe object on a bus, with a form factor. -/
def onBus (bus : UInt64) (form : String) : DbusObject :=
  (busless form).insert decoratorI2CDevice (FlatMap.empty.insert "Bus" (.uint64 bus))

/-- One object, on the bus of the first drive. -/
def reply (bus : UInt64) : ManagedObjectType :=
  FlatMap.empty.insert "/xyz/openbmc_project/inventory/slot_1" (onBus bus "M2_2280")

theorem reaches_busless (form : String) : (busless form).Reaches := by
  refine ⟨by simp [find?_busless, itemNVMe, itemDrive], ?_, DbusObject.offers_of_property? (ownForm_busless form)⟩
  have hdevice : (busless form).find? decoratorI2CDevice = none := by
    simp [find?_busless, decoratorI2CDevice, itemDrive, itemNVMe]
  unfold DbusObject.Offers
  rw [hdevice]
  exact nofun

theorem lastBus_of_own {bus : UInt64} {objects : List (String × DbusObject)} (hne : objects ≠ [])
    (hown : ∀ object ∈ objects, object.2.isOwn bus = true) : lastBus objects = some bus := by
  obtain ⟨front, object, rfl⟩ := (List.eq_nil_or_concat objects).resolve_left hne
  rw [List.concat_eq_append] at hown ⊢
  exact lastBus_of_isOwn (hown object (by simp))

theorem lt_append_a (s : String) : s < s ++ "a" := by
  rw [String.lt_iff_toList_lt, String.toList_append]
  generalize s.toList = l
  induction l with
  | nil => exact List.nil_lt_cons _ _
  | cons c l ih =>
      rw [List.cons_append]
      exact List.cons_lt_cons_iff.mpr (.inr ⟨rfl, ih⟩)

theorem exists_path (paths : List String) : ∃ path, ∀ path' ∈ paths, path' < path := by
  induction paths with
  | nil => exact ⟨"", fun _ h => absurd h List.not_mem_nil⟩
  | cons path' paths ih =>
      obtain ⟨path, hpath⟩ := ih
      refine ⟨max path path' ++ "a", fun path'' h => ?_⟩
      rcases List.mem_cons.mp h with rfl | h
      · exact lt_of_le_of_lt (le_max_right _ _) (lt_append_a _)
      · exact lt_trans (hpath _ h) (lt_of_le_of_lt (le_max_left _ _) (lt_append_a _))

variable (cfg) in
/-- Behind the objects of a bus, an object without a bus changes the form factor of the drives on it. -/
theorem exists_leak (hd : driveMap[i]? = some d) (htyped : objData.WellTyped) (hown : ownObjects objData d ≠ [])
    (form : String) : ∃ objData' : ManagedObjectType, objData'.WellTyped ∧
      ownObjects objData' d = ownObjects objData d ∧
      (leftOn cfg objData' driveMap i).map Prod.fst = some (getDriveFormFactor (afterLast '.' form)) := by
  let kept : ManagedObjectType := objData.filter fun object => object.2.isOwn d.bus.toUInt64
  have hkept : ∀ object ∈ kept.entries, object.2.WellTyped ∧ object.2.isOwn d.bus.toUInt64 = true := fun object hobject =>
    ⟨htyped object (List.mem_filter.mp hobject).1, (List.mem_filter.mp hobject).2⟩
  obtain ⟨path, hpath⟩ := exists_path (kept.entries.map Prod.fst)
  have hentries : (kept.insert path (busless form)).entries = kept.entries ++ [(path, busless form)] :=
    FlatMap.entries_insert_of_lt (fun object hobject => hpath _ (List.mem_map_of_mem hobject)) _
  refine ⟨kept.insert path (busless form), ?_, ?_, ?_⟩
  · intro object hobject
    rw [hentries] at hobject
    rcases List.mem_append.mp hobject with hobject | hobject
    · exact (hkept object hobject).1
    · rw [List.mem_singleton.mp hobject]
      exact wellTyped_busless form
  · unfold ownObjects
    rw [hentries, List.filter_append, List.filter_cons_of_neg (by simp [isOwn_busless]), List.filter_nil,
      List.append_nil]
    exact List.filter_eq_self.mpr fun object hobject => (hkept object hobject).2
  · obtain ⟨placement, hleaves⟩ := exists_leaves d fun object hobject => (hkept object hobject).1
    have hafter : Leaves d (kept.insert path (busless form)).entries
        (afterObject d.bus.toUInt64 kept.entries (path, busless form) placement) := by
      rw [hentries]
      exact leaves_snoc hleaves (wellTyped_busless form)
    have hbus : lastBus (kept.entries ++ [(path, busless form)]) = some d.bus.toUInt64 := by
      unfold lastBus
      rw [lastNamed_snoc, DbusObject.named, ownBus_busless, ite_self, Option.none_or]
      exact lastBus_of_own hown fun object hobject => (hkept object hobject).2
    have hform : lastForm (kept.entries ++ [(path, busless form)]) = some form := by
      unfold lastForm
      rw [lastNamed_snoc, DbusObject.namedForm, if_pos (reaches_busless form), ownForm_busless]
      rfl
    rw [leftOn_of_leaves hd hafter, afterObject, if_pos ⟨reaches_busless form, hbus⟩, hform, Option.map_some,
      Option.getD_some]

end
end NvmeManager
