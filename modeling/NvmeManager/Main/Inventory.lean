import NvmeManager.Main.Dbus
import NvmeManager.Device.Drive

/-!
# The inventory of the drives

`handleEmEndpoints` goes through the objects of an inventory reply, with the bus, the form factor and the association in
variables that live as long as the loop.

* `EmVars`, `emObject` : the variables, and what the body of the loop does to them; `handleEmEndpoints` : the function;
* `emTrace`, `handleEmEndpoints_eq` : the values with which the body reaches the drives, and what they do to each drive;
* `ownObjects` : the objects that name the bus of a drive; `contributed` : what these make of its values;
* `EmUnexpected`, `Reaches` : the body comes upon a property of an unexpected type, or it gets to the drives;
  `emObject_unexpected`, `emObject_expected` : what it does then.
-/

namespace NvmeManager

def itemNVMe : String := "xyz.openbmc_project.Inventory.Item.NVMe"
def itemDrive : String := "xyz.openbmc_project.Inventory.Item.Drive"
def decoratorI2CDevice : String := "xyz.openbmc_project.Inventory.Decorator.I2CDevice"
def associationDefinitions : String := "xyz.openbmc_project.Association.Definitions"

/-- The variables of `handleEmEndpoints`. -/
structure EmVars where
  bus : UInt64
  form : String
  driveAssoc : String
  deriving DecidableEq

namespace EmVars

def init : EmVars := ⟨-1, "", ""⟩

/-- The I2C bus of an object; `false` where the loop goes on with the next object, `none` where it throws. -/
def readBus (vars : EmVars) (data : DbusObject) : Option (EmVars × Bool) :=
  match data.find? decoratorI2CDevice with
  | none => some (vars, true)
  | some prop =>
    match prop.find? "Bus" with
    | none => some (vars, false)
    | some v => v.uint64?.map fun bus => ({ vars with bus }, true)

def readForm (vars : EmVars) (data : DbusObject) : Option (EmVars × Bool) :=
  match data.find? itemDrive with
  | none => some (vars, true)
  | some prop =>
    match prop.find? "FormFactor" with
    | none => some (vars, false)
    | some v => v.string?.map fun form => ({ vars with form }, true)

def containing (assocs : List Association) (driveAssoc : String) : String :=
  assocs.foldl (fun acc assoc => if assoc.2.1 = "containing" then assoc.2.2 else acc) driveAssoc

def readAssoc (vars : EmVars) (data : DbusObject) : Option EmVars :=
  match data.find? associationDefinitions with
  | none => some vars
  | some prop =>
    match prop.find? "Associations" with
    | none => some vars
    | some v => v.associations?.map fun assocs => { vars with driveAssoc := containing assocs vars.driveAssoc }

/-- The body of the loop, up to the loop over the drives: `true` if it gets there. -/
def emObject (vars : EmVars) (data : DbusObject) : Option (EmVars × Bool) :=
  match data.find? itemNVMe with
  | none => some (vars, false)
  | some _ =>
    (vars.readBus data).bind fun (vars, goOn) =>
      if goOn = false then some (vars, false)
      else
        (vars.readForm data).bind fun (vars, goOn) =>
          if goOn = false then some (vars, false)
          else (vars.readAssoc data).map fun vars => (vars, true)

end EmVars

/-- What the loop over the drives does with one of them. -/
def NVMeDevice.visit (vars : EmVars) (d : NVMeDevice) : NVMeDevice :=
  if d.bus.toUInt64 ≠ vars.bus then d else d.inventory vars.form vars.driveAssoc

def emStep (s : EmVars × List NVMeDevice) (object : String × DbusObject) : Option (EmVars × List NVMeDevice) :=
  (s.1.emObject object.2).map fun (vars, goOn) =>
    (vars, if goOn then s.2.map (NVMeDevice.visit vars) else s.2)

/-- The drives are updated, and then initialized. -/
def handleEmEndpoints (cfg : Config) (objData : ManagedObjectType) (driveMap : List NVMeDevice) :
    Option (List NVMeDevice) :=
  (objData.entries.foldlM emStep (.init, driveMap)).map fun s => s.2.map (NVMeDevice.initializeDrive cfg)

/-! ## The visits of the loop -/

/-- The variables after the loop, and their values at each pass that gets to the drives, oldest first. -/
def emTrace (vars : EmVars) : List (String × DbusObject) → Option (EmVars × List EmVars)
  | [] => some (vars, [])
  | object :: rest =>
    (vars.emObject object.2).bind fun (vars, goOn) =>
      (emTrace vars rest).map fun (last, vs) => (last, if goOn then vars :: vs else vs)

/-- What all these passes do to a drive. -/
def NVMeDevice.visitAll (vs : List EmVars) (d : NVMeDevice) : NVMeDevice := vs.foldl (fun d vars => d.visit vars) d

theorem foldlM_emStep (objects : List (String × DbusObject)) (vars : EmVars) (driveMap : List NVMeDevice) :
    objects.foldlM emStep (vars, driveMap) =
      (emTrace vars objects).map fun t => (t.1, driveMap.map (NVMeDevice.visitAll t.2)) := by
  induction objects generalizing vars driveMap with
  | nil =>
      have hid : NVMeDevice.visitAll [] = id := rfl
      simp [emTrace, hid]
  | cons object rest ih =>
      rw [List.foldlM_cons, emStep, emTrace]
      cases hobject : vars.emObject object.2 with
      | none => rfl
      | some r =>
          obtain ⟨vars', goOn⟩ := r
          change rest.foldlM emStep (vars', if goOn then driveMap.map (NVMeDevice.visit vars') else driveMap) = _
          rw [ih]
          cases htrace : emTrace vars' rest with
          | none => simp [htrace]
          | some t =>
              cases goOn with
              | false => simp [htrace]
              | true => simp [htrace, NVMeDevice.visitAll]

/-- Each drive is updated by itself. -/
theorem handleEmEndpoints_eq (cfg : Config) (objData : ManagedObjectType) (driveMap : List NVMeDevice) :
    handleEmEndpoints cfg objData driveMap =
      (emTrace .init objData.entries).map fun t => driveMap.map fun d => (d.visitAll t.2).initializeDrive cfg := by
  unfold handleEmEndpoints
  rw [foldlM_emStep]
  cases emTrace .init objData.entries with
  | none => rfl
  | some t => simp

theorem emTrace_append (vars : EmVars) (objects objects' : List (String × DbusObject)) :
    emTrace vars (objects ++ objects') = (emTrace vars objects).bind fun t =>
      (emTrace t.1 objects').map fun t' => (t'.1, t.2 ++ t'.2) := by
  induction objects generalizing vars with
  | nil => simp [emTrace]
  | cons object rest ih =>
      rw [List.cons_append, emTrace, emTrace]
      cases vars.emObject object.2 with
      | none => rfl
      | some r =>
          obtain ⟨vars', goOn⟩ := r
          simp only [Option.bind_some, ih]
          cases emTrace vars' rest with
          | none => rfl
          | some t =>
              cases goOn with
              | false => simp [Function.comp_def]
              | true => simp [Function.comp_def]

/-! ## What a drive is left with -/

namespace NVMeDevice

/-- The values of a drive that the inventory sets. -/
def placement (d : NVMeDevice) : DriveFormFactor × String := (d.props.formFactor, d.driveAssociation)

@[simp] theorem bus_inventory {d : NVMeDevice} (form driveAssoc : String) : (d.inventory form driveAssoc).bus = d.bus := by
  unfold inventory
  split <;> rfl

theorem placement_inventory {d : NVMeDevice} (form driveAssoc : String) : (d.inventory form driveAssoc).placement =
    (getDriveFormFactor (afterLast '.' form), if driveAssoc ≠ "" then driveAssoc else d.driveAssociation) := by
  unfold inventory
  by_cases h : driveAssoc = ""
  · simp [h, placement, DriveView.updateFormFactor]
  · simp [h, placement, DriveView.updateFormFactor, DriveView.updateDriveAssociations]

@[simp] theorem bus_visit {d : NVMeDevice} (vars : EmVars) : (d.visit vars).bus = d.bus := by
  unfold visit
  split
  · rfl
  · exact bus_inventory _ _

@[simp] theorem bus_visitAll (vs : List EmVars) (d : NVMeDevice) : (d.visitAll vs).bus = d.bus := by
  induction vs generalizing d with
  | nil => rfl
  | cons vars vs ih => exact (ih (d.visit vars)).trans (bus_visit vars)

theorem intf_visitAll (vs : List EmVars) (d : NVMeDevice) : (d.visitAll vs).intf = d.intf := by
  induction vs generalizing d with
  | nil => rfl
  | cons vars vs ih =>
      change ((d.visit vars).visitAll vs).intf = d.intf
      rw [ih]
      unfold visit
      split
      · rfl
      · exact intf_inventory

end NVMeDevice

/-- What a reply leaves on the drive at a place of the map. -/
def leftOn (cfg : Config) (objData : ManagedObjectType) (driveMap : List NVMeDevice) (i : Nat) :
    Option (DriveFormFactor × String) :=
  (handleEmEndpoints cfg objData driveMap).bind fun drives => drives[i]?.map NVMeDevice.placement

theorem leftOn_eq {cfg : Config} {driveMap : List NVMeDevice} {i : Nat} {d : NVMeDevice} (hd : driveMap[i]? = some d)
    (objData : ManagedObjectType) :
    leftOn cfg objData driveMap i = (emTrace .init objData.entries).map fun t => (d.visitAll t.2).placement := by
  unfold leftOn
  rw [handleEmEndpoints_eq]
  cases emTrace .init objData.entries with
  | none => rfl
  | some t =>
      simp only [Option.map_some, Option.bind_some, List.getElem?_map, hd]
      rfl

/-! ## The objects of a bus -/

namespace DbusObject
variable (data : DbusObject)

def ownBus : Option UInt64 := (data.find? decoratorI2CDevice).bind fun prop => (prop.find? "Bus").bind (·.uint64?)

def ownForm : Option String := (data.find? itemDrive).bind fun prop => (prop.find? "FormFactor").bind (·.string?)

def ownAssoc : Option String :=
  (data.find? associationDefinitions).bind fun prop =>
    (prop.find? "Associations").bind fun v =>
      v.associations?.bind fun assocs => (assocs.filter (·.2.1 = "containing")).getLast?.map (·.2.2)

/-- The properties that the loop reads have their types. -/
structure WellTyped : Prop where
  bus : Typed BasicVariantType.uint64? decoratorI2CDevice "Bus" data
  form : Typed BasicVariantType.string? itemDrive "FormFactor" data
  assocs : Typed BasicVariantType.associations? associationDefinitions "Associations" data

def isOwn (bus : UInt64) : Bool := (data.find? itemNVMe).isSome && data.ownBus = some bus

/-- What an object contributes to a drive on its bus: its form factor, and the path that it is contained in. -/
def contribute (placement : DriveFormFactor × String) : DriveFormFactor × String :=
  (data.ownForm.elim placement.1 fun form => getDriveFormFactor (afterLast '.' form),
    data.ownAssoc.elim placement.2 fun path => if path ≠ "" then path else placement.2)

end DbusObject

/-- The objects of a reply that name the bus of a drive, in the order of their paths. -/
def ownObjects (objData : ManagedObjectType) (d : NVMeDevice) : List (String × DbusObject) :=
  objData.entries.filter fun object => object.2.isOwn d.bus.toUInt64

/-- What the objects that name the bus of a drive make of its values. -/
def contributed (objects : List (String × DbusObject)) (d : NVMeDevice) : DriveFormFactor × String :=
  (objects.filter fun object => object.2.isOwn d.bus.toUInt64).foldl (fun placement object => object.2.contribute placement)
    d.placement

def ManagedObjectType.WellTyped (objData : ManagedObjectType) : Prop := ∀ object ∈ objData.entries, object.2.WellTyped

/-! ## The body of the loop -/

namespace DbusObject
variable (data : DbusObject)

/-- An object in which `handleEmEndpoints` comes upon a property of an unexpected type. -/
def EmUnexpected : Prop :=
  (data.find? itemNVMe).isSome ∧
    (¬ data.Typed (·.uint64?) decoratorI2CDevice "Bus" ∨ data.Offers decoratorI2CDevice "Bus" ∧
      (¬ data.Typed (·.string?) itemDrive "FormFactor" ∨ data.Offers itemDrive "FormFactor" ∧
        ¬ data.Typed (·.associations?) associationDefinitions "Associations"))

def Reaches : Prop :=
  (data.find? itemNVMe).isSome ∧ data.Offers decoratorI2CDevice "Bus" ∧ data.Offers itemDrive "FormFactor"

instance : Decidable data.Reaches := inferInstanceAs (Decidable (_ ∧ _ ∧ _))

instance : Decidable data.WellTyped := decidable_of_iff (_ ∧ _ ∧ _) ⟨fun h => ⟨h.1, h.2.1, h.2.2⟩, fun h => ⟨h.1, h.2, h.3⟩⟩

def named : Option UInt64 := if (data.find? itemNVMe).isSome then data.ownBus else none

variable {data}

theorem WellTyped.expected (h : data.WellTyped) : ¬ data.EmUnexpected := by
  rintro ⟨_, hbus | ⟨_, hform | ⟨_, hassocs⟩⟩⟩
  · exact hbus h.bus
  · exact hform h.form
  · exact hassocs h.assocs

/-- An object that gets to the drives has been read to its end. -/
theorem wellTyped_of_reaches (h : ¬ data.EmUnexpected) (hreaches : data.Reaches) : data.WellTyped := by
  obtain ⟨hnvme, hbus, hform⟩ := hreaches
  refine ⟨?_, ?_, ?_⟩
  · by_contra hnot
    exact h ⟨hnvme, .inl hnot⟩
  · by_contra hnot
    exact h ⟨hnvme, .inr ⟨hbus, .inl hnot⟩⟩
  · by_contra hnot
    exact h ⟨hnvme, .inr ⟨hbus, .inr ⟨hform, hnot⟩⟩⟩

end DbusObject

namespace EmVars
variable {vars : EmVars} {data : DbusObject}

theorem elim_getD {α γ : Type} (o : Option α) (f : α → γ) (old : α) (absent : γ) (h : absent = f old) :
    (o.elim (some absent) fun a => some (f a)) = some (f (o.getD old)) := by
  cases o with
  | none => exact congrArg some h
  | some a => rfl

theorem readBus_eq : vars.readBus data =
    if data.Typed (·.uint64?) decoratorI2CDevice "Bus" then
      if data.Offers decoratorI2CDevice "Bus" then some ({ vars with bus := data.ownBus.getD vars.bus }, true)
      else some (vars, false)
    else none := by
  rw [← elim_getD data.ownBus (fun bus => ({ vars with bus }, true)) vars.bus (vars, true) rfl]
  exact data.match_property _ _ _ _ _ fun bus? => bus?.map fun bus => ({ vars with bus }, true)

theorem readForm_eq : vars.readForm data =
    if data.Typed (·.string?) itemDrive "FormFactor" then
      if data.Offers itemDrive "FormFactor" then some ({ vars with form := data.ownForm.getD vars.form }, true)
      else some (vars, false)
    else none := by
  rw [← elim_getD data.ownForm (fun form => ({ vars with form }, true)) vars.form (vars, true) rfl]
  exact data.match_property _ _ _ _ _ fun form? => form?.map fun form => ({ vars with form }, true)

theorem containing_eq (assocs : List Association) (driveAssoc : String) : containing assocs driveAssoc =
    ((assocs.filter (·.2.1 = "containing")).getLast?.map (·.2.2)).getD driveAssoc := by
  induction assocs generalizing driveAssoc with
  | nil => rfl
  | cons assoc rest ih =>
      change containing rest (if assoc.2.1 = "containing" then assoc.2.2 else driveAssoc) = _
      rw [ih]
      by_cases h : assoc.2.1 = "containing"
      · rw [if_pos h, List.filter_cons_of_pos (by simpa using h), List.getLast?_cons]
        cases (rest.filter (·.2.1 = "containing")).getLast? <;> rfl
      · rw [if_neg h, List.filter_cons_of_neg (by simpa using h)]

/-- The association that an object has been given, whatever the object has been read for. -/
theorem ownAssoc_eq : data.ownAssoc = (data.property? (·.associations?) associationDefinitions "Associations").bind
    fun assocs => (assocs.filter (·.2.1 = "containing")).getLast?.map (·.2.2) := by
  unfold DbusObject.ownAssoc DbusObject.property?
  rw [Option.bind_assoc]
  refine congrArg _ (funext fun prop => ?_)
  rw [Option.bind_assoc]

theorem readAssoc_eq : vars.readAssoc data =
    if data.Typed (·.associations?) associationDefinitions "Associations" then
      some { vars with driveAssoc := data.ownAssoc.getD vars.driveAssoc }
    else none := by
  have hread := data.match_property (·.associations?) associationDefinitions "Associations" (some vars) (some vars)
    fun assocs? => assocs?.map fun assocs => { vars with driveAssoc := containing assocs vars.driveAssoc }
  refine hread.trans (if_congr Iff.rfl ?_ rfl)
  rw [ownAssoc_eq]
  by_cases hoffers : data.Offers associationDefinitions "Associations"
  · rw [if_pos hoffers]
    cases data.property? (·.associations?) associationDefinitions "Associations" with
    | none => rfl
    | some assocs =>
        rw [Option.elim_some, Option.map_some, containing_eq]
        rfl
  · rw [if_neg hoffers, DbusObject.property?_of_not_offers hoffers]
    rfl

theorem emObject_unexpected (h : data.EmUnexpected) : vars.emObject data = none := by
  obtain ⟨hnvme, h⟩ := h
  obtain ⟨prop, hprop⟩ := Option.isSome_iff_exists.mp hnvme
  unfold emObject
  rw [hprop, readBus_eq]
  dsimp only
  rcases h with hbus | ⟨hoffers, h⟩
  · rw [if_neg hbus]
    rfl
  · by_cases hbus : data.Typed (·.uint64?) decoratorI2CDevice "Bus"
    · rw [if_pos hbus, if_pos hoffers, Option.bind_some]
      dsimp only
      rw [if_neg (by decide), readForm_eq]
      rcases h with hform | ⟨hoffers, hassoc⟩
      · rw [if_neg hform]
        rfl
      · by_cases hform : data.Typed (·.string?) itemDrive "FormFactor"
        · rw [if_pos hform, if_pos hoffers, Option.bind_some]
          dsimp only
          rw [if_neg (by decide), readAssoc_eq, if_neg hassoc]
          rfl
        · rw [if_neg hform]
          rfl
    · rw [if_neg hbus]
      rfl

def after (vars : EmVars) (data : DbusObject) : EmVars :=
  if data.Reaches then
    ⟨data.ownBus.getD vars.bus, data.ownForm.getD vars.form, data.ownAssoc.getD vars.driveAssoc⟩
  else
    { vars with bus := data.named.getD vars.bus }

theorem emObject_expected (h : ¬ data.EmUnexpected) :
    vars.emObject data = some (vars.after data, decide data.Reaches) := by
  unfold emObject after DbusObject.named
  cases hnvme : data.find? itemNVMe with
  | none =>
      have hreaches : ¬ data.Reaches := by
        rintro ⟨hsome, _⟩
        rw [hnvme] at hsome
        cases hsome
      rw [if_neg hreaches, decide_eq_false hreaches]
      rfl
  | some prop =>
      have hsome : (data.find? itemNVMe).isSome := by
        rw [hnvme]
        rfl
      have hbus : data.Typed (·.uint64?) decoratorI2CDevice "Bus" := by
        by_contra hbus
        exact h ⟨hsome, .inl hbus⟩
      rw [readBus_eq, if_pos hbus]
      dsimp only
      rw [Option.isSome_some, if_pos rfl]
      by_cases hoffers : data.Offers decoratorI2CDevice "Bus"
      · have hform : data.Typed (·.string?) itemDrive "FormFactor" := by
          by_contra hform
          exact h ⟨hsome, .inr ⟨hoffers, .inl hform⟩⟩
        rw [if_pos hoffers, Option.bind_some]
        dsimp only
        rw [if_neg (by decide), readForm_eq, if_pos hform]
        by_cases hoffers' : data.Offers itemDrive "FormFactor"
        · have hassoc : data.Typed (·.associations?) associationDefinitions "Associations" := by
            by_contra hassoc
            exact h ⟨hsome, .inr ⟨hoffers, .inr ⟨hoffers', hassoc⟩⟩⟩
          have hreaches : data.Reaches := ⟨hsome, hoffers, hoffers'⟩
          rw [if_pos hoffers', Option.bind_some]
          dsimp only
          rw [if_neg (by decide), readAssoc_eq, if_pos hassoc, if_pos hreaches, decide_eq_true hreaches]
          rfl
        · have hreaches : ¬ data.Reaches := fun hreaches => hoffers' hreaches.2.2
          rw [if_neg hoffers', if_neg hreaches, decide_eq_false hreaches]
          rfl
      · have hreaches : ¬ data.Reaches := fun hreaches => hoffers hreaches.2.1
        have hnone : data.ownBus = none := DbusObject.property?_of_not_offers hoffers
        rw [if_neg hoffers, if_neg hreaches, decide_eq_false hreaches, hnone]
        rfl

theorem bus_after : (vars.after data).bus = data.named.getD vars.bus := by
  unfold after
  by_cases hreaches : data.Reaches
  · rw [if_pos hreaches]
    unfold DbusObject.named
    rw [if_pos hreaches.1]
  · rw [if_neg hreaches]

end EmVars

end NvmeManager
