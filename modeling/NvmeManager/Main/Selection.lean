import NvmeManager.Main.Objects
import Mathlib.Data.List.Nodup

/-!
# The objects that are asked

A reply of the mapper names the services of each object, and the interfaces that each of them has there.

* `wanted` : the requests that an object calls for: its first service has all the interfaces;
* `num_eq_length_iff` : the count of the interfaces finds these objects, where no list has one twice and the byte does not
  overflow;
* `Selectable` : the objects that call for a request; `Issues` : the requests that a reply leads to;
* `issues_wanted_iff` : a reply leads to the requests that its objects call for, exactly if no object without a service
  stands before a selectable one.
-/

namespace NvmeManager
namespace GetObjects

def wanted (interfaces : List String) : String × List (String × List String) → List PathRequest
  | (_, []) => []
  | (path, (owner, ifaces) :: _) =>
    if interfaces ⊆ ifaces then (ifaces.filter (· ∈ interfaces)).map (⟨path, ·, owner, 5⟩) else []

/-- The first service of an object has all the interfaces, and there is one. -/
def Selectable (interfaces : List String) (object : String × List (String × List String)) : Prop :=
  interfaces ≠ [] ∧ ∃ service ∈ object.2.head?, interfaces ⊆ service.2

/-- The reply of the mapper leads to these requests, and to no others. -/
def Issues (self : GetObjects) (interfaces : List String) (retries : Nat) (ret : GetSubTreeType)
    (requests : List PathRequest) : Prop :=
  ∃ self', self.next interfaces (.mapperReply retries (some ret)) = some self' ∧
    self'.requests = self.requests ++ requests.map PathRequest.pair ∧
    self'.outstanding = self.outstanding.erase (.mapper retries) ++ requests.map .path

section
variable {interfaces ifaces : List String} {ret : GetSubTreeType} {object : String × List (String × List String)}

/-- The byte counts modulo 256. -/
theorem num_eq (interfaces ifaces : List String) :
    (num interfaces ifaces).toNat = (ifaces.filter (· ∈ interfaces)).length % 256 := by
  have hfold : ∀ start : UInt8, (ifaces.foldl (fun num i => if i ∈ interfaces then num + 1 else num) start).toNat =
      (start.toNat + (ifaces.filter (· ∈ interfaces)).length) % 256 := by
    induction ifaces with
    | nil => exact fun start => (Nat.mod_eq_of_lt start.toNat_lt).symm
    | cons i ifaces ih =>
        intro start
        rw [List.foldl_cons, ih]
        by_cases hi : i ∈ interfaces
        · rw [if_pos hi, List.filter_cons, if_pos (decide_eq_true hi), List.length_cons, UInt8.toNat_add]
          change ((start.toNat + 1) % 256 + _) % 256 = _
          omega
        · rw [if_neg hi, List.filter_cons, if_neg (by simpa using hi)]
  exact (hfold 0).trans (by rw [show (0 : UInt8).toNat = 0 from rfl, Nat.zero_add])

/-- **Pigeonhole.** An object has as many of the interfaces as there are exactly if it has them all. -/
theorem num_eq_length_iff (hinterfaces : interfaces.Nodup) (hlength : interfaces.length < 256) (hifaces : ifaces.Nodup) :
    (num interfaces ifaces).toNat = interfaces.length ↔ interfaces ⊆ ifaces := by
  have hmatching : (ifaces.filter (· ∈ interfaces)).Subperm interfaces :=
    List.subperm_of_subset (hifaces.filter _) fun i hi => by simpa using (List.mem_filter.mp hi).2
  rw [num_eq, Nat.mod_eq_of_lt (Nat.lt_of_le_of_lt hmatching.length_le hlength)]
  constructor
  · intro hall i hi
    have hperm := hmatching.perm_of_length_le hall.ge
    exact (List.mem_filter.mp (hperm.mem_iff.mpr hi)).1
  · intro hsubset
    have hback : interfaces.Subperm (ifaces.filter (· ∈ interfaces)) :=
      List.subperm_of_subset hinterfaces fun i hi => List.mem_filter.mpr ⟨hsubset hi, decide_eq_true hi⟩
    exact Nat.le_antisymm hmatching.length_le hback.length_le

theorem wanted_eq_nil_iff : wanted interfaces object = [] ↔ ¬ Selectable interfaces object := by
  obtain ⟨path, objDict⟩ := object
  unfold wanted Selectable
  cases objDict with
  | nil => simp
  | cons service services =>
      obtain ⟨owner, ifaces⟩ := service
      dsimp only
      by_cases hall : interfaces ⊆ ifaces
      · rw [if_pos hall, List.map_eq_nil_iff, List.filter_eq_nil_iff]
        constructor
        · rintro hnone ⟨hne, _⟩
          obtain ⟨i, hi⟩ := List.exists_mem_of_ne_nil interfaces hne
          exact hnone i (hall hi) (decide_eq_true hi)
        · intro hnot i _ hmem
          refine hnot ⟨?_, _, rfl, hall⟩
          exact List.ne_nil_of_mem (of_decide_eq_true hmem)
      · rw [if_neg hall]
        refine iff_of_true rfl ?_
        rintro ⟨_, _, ⟨⟩, hsubset⟩
        exact hall hsubset

theorem selected_cons (hinterfaces : interfaces.Nodup) (hlength : interfaces.length < 256) (hifaces : ifaces.Nodup)
    (path owner : String) (services : List (String × List String)) :
    selected interfaces ((path, (owner, ifaces) :: services) :: ret) =
      wanted interfaces (path, (owner, ifaces) :: services) ++ selected interfaces ret := by
  have hnum := num_eq_length_iff hinterfaces hlength hifaces
  rw [selected, wanted]
  by_cases hall : interfaces ⊆ ifaces
  · rw [if_neg (not_not_intro (hnum.mpr hall)), if_pos hall]
  · rw [if_pos (mt hnum.mp hall), if_neg hall, List.nil_append]

/-- The loop stops at an object without a service. -/
theorem selected_eq_iff (hinterfaces : interfaces.Nodup) (hlength : interfaces.length < 256)
    (hret : ∀ object ∈ ret, ∀ service ∈ object.2, service.2.Nodup) :
    selected interfaces ret = ret.flatMap (wanted interfaces) ↔
      ret.Pairwise fun object later => object.2 = [] → ¬ Selectable interfaces later := by
  induction ret with
  | nil => exact iff_of_true rfl .nil
  | cons object rest ih =>
      have hrest := ih fun o ho => hret o (List.mem_cons_of_mem _ ho)
      rw [List.flatMap_cons, List.pairwise_cons]
      obtain ⟨path, objDict⟩ := object
      cases objDict with
      | nil =>
          have hnone : [] = rest.flatMap (wanted interfaces) ↔ ∀ later ∈ rest, ¬ Selectable interfaces later := by
            rw [eq_comm, List.flatMap_eq_nil_iff]
            exact forall₂_congr fun _ _ => wanted_eq_nil_iff
          change [] = [] ++ rest.flatMap (wanted interfaces) ↔ _
          rw [List.nil_append, hnone]
          constructor
          · intro h
            refine ⟨fun later hlater _ => h later hlater, ?_⟩
            exact List.pairwise_of_forall_mem_list fun _ _ later hlater _ => h later hlater
          · exact fun h later hlater => h.1 later hlater rfl
      | cons service services =>
          obtain ⟨owner, ifaces⟩ := service
          have hifaces : ifaces.Nodup := hret _ List.mem_cons_self _ List.mem_cons_self
          have hhead : ∀ later ∈ rest, (path, (owner, ifaces) :: services).2 = [] → ¬ Selectable interfaces later :=
            fun _ _ => nofun
          rw [and_iff_right hhead, ← hrest, selected_cons hinterfaces hlength hifaces, List.append_cancel_left_eq]

theorem capped_selected {r : PathRequest} (hr : r ∈ selected interfaces ret) : r.capped = r := by
  induction ret with
  | nil => cases hr
  | cons object rest ih =>
      obtain ⟨path, objDict⟩ := object
      cases objDict with
      | nil => cases hr
      | cons service services =>
          rw [selected] at hr
          split at hr
          · exact ih hr
          · rcases List.mem_append.mp hr with hr | hr
            · obtain ⟨i, _, rfl⟩ := List.mem_map.mp hr
              rfl
            · exact ih hr

theorem issues_iff {self : GetObjects} {retries : Nat} {requests : List PathRequest}
    (hout : .mapper retries ∈ self.outstanding) :
    self.Issues interfaces retries ret requests ↔ selected interfaces ret = requests := by
  have hcapped : (selected interfaces ret).map (.path ·.capped) = (selected interfaces ret).map Work.path :=
    List.map_congr_left fun r hr => congrArg Work.path (capped_selected hr)
  have hpath : Function.Injective Work.path := fun _ _ h => Work.path.inj h
  obtain ⟨self', hnext⟩ : ∃ self', self.next interfaces (.mapperReply retries (some ret)) = some self' :=
    ⟨_, if_pos hout⟩
  have hafter := (next_eq_some hnext).2
  have houtstanding : self'.outstanding =
      self.outstanding.erase (.mapper retries) ++ (selected interfaces ret).map Work.path := by
    rw [hafter, outstanding_release, ← hcapped]
    rfl
  have hrequests : self'.requests = self.requests ++ (selected interfaces ret).map PathRequest.pair := by
    rw [hafter, requests_release]
    exact congrArg (self.requests ++ ·) (asked_selected _)
  constructor
  · rintro ⟨g, hg, _, hg'⟩
    obtain rfl := Option.some.inj (hnext.symm.trans hg)
    rw [houtstanding] at hg'
    exact hpath.list_map (List.append_cancel_left hg')
  · rintro rfl
    exact ⟨self', hnext, hrequests, houtstanding⟩

/-- **Requests.** The reply of the mapper leads to the requests that its objects call for, each for itself, exactly if no
object without a service stands before a selectable one. -/
theorem issues_wanted_iff {self : GetObjects} {retries : Nat} (hinterfaces : interfaces.Nodup)
    (hlength : interfaces.length < 256) (hret : ∀ object ∈ ret, ∀ service ∈ object.2, service.2.Nodup)
    (hout : .mapper retries ∈ self.outstanding) :
    self.Issues interfaces retries ret (ret.flatMap (wanted interfaces)) ↔
      ret.Pairwise fun object later => object.2 = [] → ¬ Selectable interfaces later := by
  rw [issues_iff hout, selected_eq_iff hinterfaces hlength hret]

end

/-- A drive with both interfaces, in the service of the entity manager, and an object with one of them. -/
def twoObjects : GetSubTreeType :=
  [("/drive", [("EntityManager", ["I2CDevice", "NVMe"])]), ("/fan", [("EntityManager", ["I2CDevice"])])]

/-- The theorem at these objects: the drive is asked for the two interfaces. -/
theorem issues_wanted_iff_two : (start 0).Issues ["NVMe", "I2CDevice"] 0 twoObjects
    [⟨"/drive", "I2CDevice", "EntityManager", 5⟩, ⟨"/drive", "NVMe", "EntityManager", 5⟩] := by
  have hret : ∀ object ∈ twoObjects, ∀ service ∈ object.2, service.2.Nodup := by decide
  have hpairwise : twoObjects.Pairwise fun object later => object.2 = [] → ¬ Selectable ["NVMe", "I2CDevice"] later :=
    .cons (fun _ _ => nofun) (List.pairwise_singleton _ _)
  exact (issues_wanted_iff (by decide) (by decide) hret (by decide)).mpr hpairwise

def ownerlessFirst : GetSubTreeType := [("/fan", []), ("/drive", [("EntityManager", ["NVMe"])])]

/-- The drive is not asked. -/
theorem object_behind_ownerless_dropped :
    ownerlessFirst.flatMap (wanted ["NVMe"]) = [⟨"/drive", "NVMe", "EntityManager", 5⟩] ∧
      (start 0).Issues ["NVMe"] 0 ownerlessFirst [] ∧
      ¬ (start 0).Issues ["NVMe"] 0 ownerlessFirst (ownerlessFirst.flatMap (wanted ["NVMe"])) := by
  have hout : Work.mapper 0 ∈ (start 0).outstanding := by decide
  have hwanted : ownerlessFirst.flatMap (wanted ["NVMe"]) = [⟨"/drive", "NVMe", "EntityManager", 5⟩] := by decide
  rw [issues_iff hout, issues_iff hout, hwanted]
  exact ⟨rfl, rfl, nofun⟩

end GetObjects
end NvmeManager
