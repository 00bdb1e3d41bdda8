import NvmeManager.Lib.FlatMap
import Mathlib.Data.String.Basic
import NvmeManager.Device.Interfaces

/-!
# The objects of the bus

* `BasicVariantType` : the value of a property; `BasicVariantType.uint64?` and the others are `std::get`, with `none` for
  the exception that it throws on another type;
* `Properties`, `DbusObject`, `ManagedObjectType` : the properties of an interface, the interfaces of an object, and the
  objects by their path;
* `DbusObject.Typed`, `DbusObject.Offers`, `DbusObject.property?` : a property does not have another type, it is not
  missing, and its value;
* `DbusObject.match_property` : what the handlers do with a property depends on no more than these.
-/

namespace NvmeManager

inductive BasicVariantType
  | strings (l : List String)
  | bytes (l : List UInt8)
  | string (s : String)
  | int64 (n : Int64)
  | uint64 (n : UInt64)
  | int32 (n : Int32)
  | uint32 (n : UInt32)
  | int16 (n : Int16)
  | uint16 (n : UInt16)
  | uint8 (n : UInt8)
  | associations (l : List Association)
  deriving DecidableEq

namespace BasicVariantType

/-- `std::get<uint64_t>`, and so `std::get<size_t>`. -/
def uint64? : BasicVariantType → Option UInt64
  | uint64 n => some n
  | _ => none

def uint32? : BasicVariantType → Option UInt32
  | uint32 n => some n
  | _ => none

def string? : BasicVariantType → Option String
  | string s => some s
  | _ => none

def bytes? : BasicVariantType → Option (List UInt8)
  | bytes l => some l
  | _ => none

def associations? : BasicVariantType → Option (List Association)
  | associations l => some l
  | _ => none

end BasicVariantType

abbrev Properties := FlatMap String BasicVariantType
abbrev DbusObject := FlatMap String Properties
abbrev ManagedObjectType := FlatMap String DbusObject

/-- The property of an interface is absent, or has the type that is asked for. -/
def DbusObject.Typed {α : Type} (get? : BasicVariantType → Option α) (interface property : String) (data : DbusObject) :
    Prop :=
  ∀ prop ∈ data.find? interface, ∀ v ∈ prop.find? property, (get? v).isSome

instance {α : Type} (get? : BasicVariantType → Option α) (interface property : String) (data : DbusObject) :
    Decidable (data.Typed get? interface property) :=
  inferInstanceAs (Decidable (∀ prop ∈ data.find? interface, ∀ v ∈ prop.find? property, _))

namespace DbusObject
variable (data : DbusObject)

/-- The property of an interface, if it has the type that is asked for. -/
def property? {α : Type} (get? : BasicVariantType → Option α) (interface property : String) : Option α :=
  (data.find? interface).bind fun prop => (prop.find? property).bind get?

def Offers (interface property : String) : Prop := ∀ prop ∈ data.find? interface, (prop.find? property).isSome

instance (interface property : String) : Decidable (data.Offers interface property) :=
  inferInstanceAs (Decidable (∀ prop ∈ data.find? interface, _))

/-! ## Reading a property -/

section
variable {data} {α γ : Type} {get? : BasicVariantType → Option α} {interface property : String}
  {prop : Properties}

theorem typed_iff (hfind : data.find? interface = some prop) :
    data.Typed get? interface property ↔ ∀ v ∈ prop.find? property, (get? v).isSome := by
  unfold Typed
  rw [hfind]
  exact ⟨fun h => h prop rfl, fun h p hp => by obtain rfl := Option.some.inj hp; exact h⟩

theorem offers_iff (hfind : data.find? interface = some prop) :
    data.Offers interface property ↔ (prop.find? property).isSome := by
  unfold Offers
  rw [hfind]
  exact ⟨fun h => h prop rfl, fun h p hp => by obtain rfl := Option.some.inj hp; exact h⟩

theorem property?_eq (hfind : data.find? interface = some prop) :
    data.property? get? interface property = (prop.find? property).bind get? := by
  unfold property?
  rw [hfind, Option.bind_some]

theorem reads_of_absent (hfind : data.find? interface = none) : data.Typed get? interface property ∧
    data.Offers interface property ∧ data.property? get? interface property = none := by
  unfold Typed Offers property?
  rw [hfind]
  exact ⟨nofun, nofun, rfl⟩

theorem property?_of_not_offers (h : ¬ data.Offers interface property) : data.property? get? interface property = none := by
  cases hfind : data.find? interface with
  | none => exact (reads_of_absent hfind).2.2
  | some prop =>
      rw [offers_iff hfind, Bool.not_eq_true, Option.isSome_eq_false_iff, Option.isNone_iff_eq_none] at h
      rw [property?_eq hfind, h]
      rfl

theorem typed_of_not_offers (h : ¬ data.Offers interface property) : data.Typed get? interface property := by
  cases hfind : data.find? interface with
  | none => exact (reads_of_absent hfind).1
  | some prop =>
      rw [offers_iff hfind, Bool.not_eq_true, Option.isSome_eq_false_iff, Option.isNone_iff_eq_none] at h
      rw [typed_iff hfind, h]
      exact nofun

theorem offers_of_property? {a : α} (h : data.property? get? interface property = some a) :
    data.Offers interface property := by
  by_contra hnot
  rw [property?_of_not_offers hnot] at h
  cases h

theorem typed_of_property? {a : α} (h : data.property? get? interface property = some a) :
    data.Typed get? interface property := by
  obtain ⟨prop, hfind, hprop⟩ := Option.bind_eq_some_iff.mp h
  obtain ⟨v, hv, hget⟩ := Option.bind_eq_some_iff.mp hprop
  rw [typed_iff hfind, hv]
  intro w hw
  obtain rfl := Option.some.inj hw
  rw [hget]
  rfl

theorem exists_property? (hfind : data.find? interface = some prop) (htyped : data.Typed get? interface property)
    (hoffers : data.Offers interface property) : ∃ a, data.property? get? interface property = some a := by
  obtain ⟨v, hv⟩ := Option.isSome_iff_exists.mp ((offers_iff hfind).mp hoffers)
  obtain ⟨a, ha⟩ := Option.isSome_iff_exists.mp ((typed_iff hfind).mp htyped v hv)
  refine ⟨a, ?_⟩
  rw [property?_eq hfind, hv, Option.bind_some, ha]

/-- What is done without the interface, without the property, and with its value, or `none` if that has another type. -/
theorem match_property (data : DbusObject) (get? : BasicVariantType → Option α) (interface property : String)
    (absent missing : γ) (k : Option α → γ) :
    (match data.find? interface with
      | none => absent
      | some prop =>
        match prop.find? property with
        | none => missing
        | some v => k (get? v)) =
      if data.Typed get? interface property then
        if data.Offers interface property then (data.property? get? interface property).elim absent fun a => k (some a)
        else missing
      else k none := by
  cases hfind : data.find? interface with
  | none =>
      have hreads : data.Typed get? interface property ∧ data.Offers interface property ∧
          data.property? get? interface property = none := reads_of_absent hfind
      obtain ⟨htyped, hoffers, hnone⟩ := hreads
      rw [if_pos htyped, if_pos hoffers, hnone]
      rfl
  | some prop =>
      rw [property?_eq hfind]
      dsimp only
      cases hv : prop.find? property with
      | none => rw [if_pos ((typed_iff hfind).mpr (by simp [hv])), if_neg (by simp [offers_iff hfind, hv])]
      | some v =>
          have hoffers : data.Offers interface property := (offers_iff hfind).mpr (by simp [hv])
          dsimp only
          rw [Option.bind_some]
          cases hget : get? v with
          | none => rw [if_neg (by simp [typed_iff hfind, hv, hget])]
          | some a => rw [if_pos ((typed_iff hfind).mpr (by simp [hv, hget])), if_pos hoffers, Option.elim_some]

end

end DbusObject
end NvmeManager
