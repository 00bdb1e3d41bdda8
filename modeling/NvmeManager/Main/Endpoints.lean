import NvmeManager.Lib.Firsts
import NvmeManager.Main.Inventory
import Mathlib.Data.List.Find

/-!
# The drives of the endpoints

`handleMCTPEndpoints` goes through the endpoints of a snapshot and adds a drive for each new one that speaks NVMe-MI.

* `DriveArgs`, `Drives` : the arguments that a drive is constructed with; the drives constructed so far, and the map;
* `readEndpoint`, `readSocket`, `readI2CBus`, `endpointArgs` : the body of the loop; `handleMCTPEndpoints` : the function;
* `readProperty_total`, `readEndpoint_total` : what is read, by the properties that are there and their types;
* `DbusObject.Acceptable` : the endpoints that a drive is built for; `endpointStep_eq` : the body passes over the others;
* `Registered` : the map after a sequence of snapshots; `registered_of_snapshots` : any sequence leads there.
-/

namespace NvmeManager

def mctpEpInterface : String := "xyz.openbmc_project.MCTP.Endpoint"
def unixSocket : String := "xyz.openbmc_project.Common.UnixSocket"
def NVME_MI_MSGTYPE_NVME : UInt8 := 0x84

/-- The arguments of the constructor of a drive. -/
structure DriveArgs where
  eid : UInt8
  bus : UInt32
  addr : List UInt8
  path : String
  deriving DecidableEq

structure Drives where
  /-- The drives constructed so far, oldest first. -/
  created : List DriveArgs
  /-- `driveMap` : for each EID the place of its drive in `created`. -/
  driveMap : List (UInt8 × Nat)
  deriving DecidableEq

def Drives.empty : Drives := ⟨[], []⟩

/-- How the body of the loop ends early: it goes on with the next endpoint, or it throws. -/
inductive Exit
  | next
  | exception
  deriving DecidableEq

/-- `std::get` on a property. -/
def orThrow {α : Type} (v : Option α) : Except Exit α := v.elim (.error .exception) .ok

/-- The EID of an endpoint, and whether it speaks NVMe-MI. -/
def readEndpoint (data : DbusObject) : Except Exit (UInt64 × Bool) :=
  match data.find? mctpEpInterface with
  | none => .ok (0, false)
  | some prop =>
    match prop.find? "EID" with
    | none => .error .next
    | some v =>
      (orThrow v.uint64?).bind fun eid =>
        match prop.find? "SupportedMessageTypes" with
        | none => .error .next
        | some v => (orThrow v.bytes?).map fun msgTypes => (eid, decide (NVME_MI_MSGTYPE_NVME &&& 0x7F ∈ msgTypes))

/-- The property of an interface, or a default without the interface. -/
def readProperty {α : Type} (get? : BasicVariantType → Option α) (interface property : String) (default : α)
    (data : DbusObject) : Except Exit α :=
  match data.find? interface with
  | none => .ok default
  | some prop =>
    match prop.find? property with
    | none => .error .next
    | some v => orThrow (get? v)

def readSocket : DbusObject → Except Exit (List UInt8) := readProperty (·.bytes?) unixSocket "Address" []

def readI2CBus : DbusObject → Except Exit UInt32 := readProperty (·.uint32?) decoratorI2CDevice "Bus" (-1)

def drivePath (cfg : Config) (eid : UInt64) : String :=
  "/xyz/openbmc_project/inventory/system/nvme/" ++ cfg.drivePrefix ++ toString eid.toNat

/-- The body of the loop, up to the map: the EID of an acceptable endpoint, and the arguments of its drive. -/
def endpointArgs (cfg : Config) (data : DbusObject) : Except Exit DriveArgs :=
  (readEndpoint data).bind fun (eid, nvmeCap) =>
    (readSocket data).bind fun addr =>
      if nvmeCap = false then .error .next
      else (readI2CBus data).map fun bus => ⟨eid.toUInt8, bus, addr ++ [0], drivePath cfg eid⟩

/-- The drive is constructed and put in the map, unless the map has one for its EID. -/
def Drives.add (s : Drives) (args : DriveArgs) : Drives :=
  if ∃ entry ∈ s.driveMap, entry.1 = args.eid then s
  else ⟨s.created ++ [args], s.driveMap ++ [(args.eid, s.created.length)]⟩

/-- One pass of the loop; `none` where it throws. -/
def endpointStep (cfg : Config) (s : Drives) (object : String × DbusObject) : Option Drives :=
  match endpointArgs cfg object.2 with
  | .ok args => some (s.add args)
  | .error .next => some s
  | .error .exception => none

/-- What a snapshot does to the map, before the inventory is collected. -/
def handleMCTPEndpoints (cfg : Config) (s : Drives) (mctpEndpoints : ManagedObjectType) : Option Drives :=
  mctpEndpoints.entries.foldlM (endpointStep cfg) s

/-! ## Acceptable endpoints -/

namespace DbusObject
variable (data : DbusObject)

/-- An endpoint with an EID that speaks NVMe-MI, with an address if it has a socket, and a bus if it is an I2C device. -/
structure Acceptable (eid : UInt64) : Prop where
  eid : data.property? (·.uint64?) mctpEpInterface "EID" = some eid
  nvme : ∃ msgTypes ∈ data.property? (·.bytes?) mctpEpInterface "SupportedMessageTypes", 0x04 ∈ msgTypes
  addr : data.Offers unixSocket "Address"
  bus : data.Offers decoratorI2CDevice "Bus"

instance (eid : UInt64) : Decidable (data.Acceptable eid) :=
  decidable_of_iff (_ ∧ (∃ msgTypes ∈ data.property? (·.bytes?) mctpEpInterface "SupportedMessageTypes", _) ∧ _ ∧ _)
    ⟨fun h => ⟨h.1, h.2.1, h.2.2.1, h.2.2.2⟩, fun h => ⟨h.eid, h.nvme, h.addr, h.bus⟩⟩

def Speaks : Prop :=
  ∃ msgTypes ∈ data.property? (·.bytes?) mctpEpInterface "SupportedMessageTypes", NVME_MI_MSGTYPE_NVME &&& 0x7F ∈ msgTypes

instance : Decidable data.Speaks :=
  inferInstanceAs (Decidable (∃ msgTypes ∈ data.property? (·.bytes?) mctpEpInterface "SupportedMessageTypes", _))

def driveArgs (cfg : Config) (eid : UInt64) : DriveArgs where
  eid := eid.toUInt8
  bus := (data.property? (·.uint32?) decoratorI2CDevice "Bus").getD (-1)
  addr := (data.property? (·.bytes?) unixSocket "Address").getD [] ++ [0]
  path := drivePath cfg eid

def accepted? (cfg : Config) : Option DriveArgs :=
  (data.property? (·.uint64?) mctpEpInterface "EID").bind fun eid =>
    if data.Acceptable eid then some (data.driveArgs cfg eid) else none

/-- The properties that the loop reads have their types, and an EID is a byte. -/
structure EndpointTyped : Prop where
  eid : Typed BasicVariantType.uint64? mctpEpInterface "EID" data
  msgTypes : Typed BasicVariantType.bytes? mctpEpInterface "SupportedMessageTypes" data
  addr : Typed BasicVariantType.bytes? unixSocket "Address" data
  bus : Typed BasicVariantType.uint32? decoratorI2CDevice "Bus" data
  byte : ∀ eid ∈ data.property? (·.uint64?) mctpEpInterface "EID", eid.toNat < 256

end DbusObject

/-! ## The body of the loop -/

section
variable {cfg : Config} {data : DbusObject}

theorem orThrow_elim {α : Type} (o : Option α) (old : α) :
    (o.elim (.ok old) fun a => orThrow (some a) : Except Exit α) = .ok (o.getD old) := by
  cases o with
  | none => rfl
  | some a => rfl

theorem readProperty_total {α : Type} (get? : BasicVariantType → Option α) (interface property : String) (default : α) :
    readProperty get? interface property default data =
      if data.Typed get? interface property then
        if data.Offers interface property then .ok ((data.property? get? interface property).getD default)
        else .error .next
      else .error .exception := by
  rw [← orThrow_elim]
  exact data.match_property _ _ _ _ _ orThrow

theorem readProperty_of_offers {α : Type} {get? : BasicVariantType → Option α} {interface property : String}
    (h : DbusObject.Typed get? interface property data) (hoffers : data.Offers interface property) (default : α) :
    readProperty get? interface property default data =
      .ok ((data.property? get? interface property).getD default) := by
  rw [readProperty_total, if_pos h, if_pos hoffers]

theorem readProperty_of_not_offers {α : Type} {get? : BasicVariantType → Option α} {interface property : String}
    (hoffers : ¬ data.Offers interface property) (default : α) :
    readProperty get? interface property default data = .error .next := by
  rw [readProperty_total, if_pos (DbusObject.typed_of_not_offers hoffers), if_neg hoffers]

theorem speaks_elim (eid : UInt64) :
    (data.property? (·.bytes?) mctpEpInterface "SupportedMessageTypes").elim (.ok (eid, false)) (fun msgTypes =>
      (orThrow (some msgTypes)).map fun msgTypes => (eid, decide (NVME_MI_MSGTYPE_NVME &&& 0x7F ∈ msgTypes))) =
      (.ok (eid, decide data.Speaks) : Except Exit (UInt64 × Bool)) := by
  cases hget : data.property? (·.bytes?) mctpEpInterface "SupportedMessageTypes" with
  | none =>
      have hspeaks : ¬ data.Speaks := by
        rintro ⟨msgTypes, hmsg, _⟩
        rw [hget] at hmsg
        cases hmsg
      rw [decide_eq_false hspeaks]
      rfl
  | some msgTypes =>
      have hspeaks : data.Speaks ↔ NVME_MI_MSGTYPE_NVME &&& 0x7F ∈ msgTypes := by
        unfold DbusObject.Speaks
        rw [hget]
        exact ⟨fun ⟨_, h, hmem⟩ => by obtain rfl := Option.some.inj h; exact hmem, fun hmem => ⟨msgTypes, rfl, hmem⟩⟩
      rw [decide_eq_decide.mpr hspeaks]
      rfl

theorem readEndpoint_total : readEndpoint data =
    if data.Typed (·.uint64?) mctpEpInterface "EID" then
      if data.Offers mctpEpInterface "EID" then
        if data.Typed (·.bytes?) mctpEpInterface "SupportedMessageTypes" then
          if data.Offers mctpEpInterface "SupportedMessageTypes" then
            .ok ((data.property? (·.uint64?) mctpEpInterface "EID").getD 0, decide data.Speaks)
          else .error .next
        else .error .exception
      else .error .next
    else .error .exception := by
  unfold readEndpoint
  cases hfind : data.find? mctpEpInterface with
  | none =>
      obtain ⟨heid, heid', hnone⟩ : data.Typed (·.uint64?) mctpEpInterface "EID" ∧ data.Offers mctpEpInterface "EID" ∧
        data.property? (·.uint64?) mctpEpInterface "EID" = none := DbusObject.reads_of_absent hfind
      obtain ⟨htypes, htypes', hnone'⟩ : data.Typed (·.bytes?) mctpEpInterface "SupportedMessageTypes" ∧
        data.Offers mctpEpInterface "SupportedMessageTypes" ∧
        data.property? (·.bytes?) mctpEpInterface "SupportedMessageTypes" = none := DbusObject.reads_of_absent hfind
      rw [if_pos heid, if_pos heid', if_pos htypes, if_pos htypes', hnone, ← speaks_elim, hnone']
      rfl
  | some prop =>
      dsimp only
      cases hv : prop.find? "EID" with
      | none =>
          rw [if_pos ((DbusObject.typed_iff hfind).mpr (by simp [hv])), if_neg (by simp [DbusObject.offers_iff hfind, hv])]
      | some v =>
          have hoffers : data.Offers mctpEpInterface "EID" := (DbusObject.offers_iff hfind).mpr (by simp [hv])
          rw [if_pos hoffers, DbusObject.property?_eq hfind, hv, Option.bind_some]
          dsimp only
          cases hget : v.uint64? with
          | none =>
              rw [if_neg (by simp [DbusObject.typed_iff hfind, hv, hget])]
              rfl
          | some eid =>
              have hinner := data.match_property (·.bytes?) mctpEpInterface "SupportedMessageTypes" (.ok (eid, false))
                (.error .next) fun msgTypes? => (orThrow msgTypes?).map fun msgTypes =>
                  (eid, decide (NVME_MI_MSGTYPE_NVME &&& 0x7F ∈ msgTypes))
              rw [speaks_elim, hfind] at hinner
              rw [if_pos ((DbusObject.typed_iff hfind).mpr (by simp [hv, hget]))]
              exact hinner

theorem readEndpoint_acceptable {eid : UInt64} (ha : data.Acceptable eid) : readEndpoint data = .ok (eid, true) := by
  -- `NVME_MI_MSGTYPE_NVME &&& 0x7F` is `0x04`
  have hspeaks : data.Speaks := ha.nvme
  obtain ⟨msgTypes, htypes, _⟩ := ha.nvme
  rw [readEndpoint_total, if_pos (DbusObject.typed_of_property? ha.eid), if_pos (DbusObject.offers_of_property? ha.eid),
    if_pos (DbusObject.typed_of_property? htypes), if_pos (DbusObject.offers_of_property? htypes), ha.eid,
    decide_eq_true hspeaks]
  rfl

theorem readEndpoint_typed (h : data.EndpointTyped) : readEndpoint data = .error .next ∨
    (∃ eid, readEndpoint data = .ok (eid, false)) ∨
    ∃ eid, readEndpoint data = .ok (eid, true) ∧
      data.property? (·.uint64?) mctpEpInterface "EID" = some eid ∧
      ∃ msgTypes ∈ data.property? (·.bytes?) mctpEpInterface "SupportedMessageTypes", 0x04 ∈ msgTypes := by
  rw [readEndpoint_total, if_pos h.eid]
  by_cases heid : data.Offers mctpEpInterface "EID"
  · rw [if_pos heid, if_pos h.msgTypes]
    by_cases htypes : data.Offers mctpEpInterface "SupportedMessageTypes"
    · rw [if_pos htypes]
      by_cases hspeaks : data.Speaks
      · -- the interface is there, and so the EID is
        have hspeaks' := hspeaks
        obtain ⟨msgTypes, hmsg, _⟩ := hspeaks'
        obtain ⟨prop, hprop, _⟩ := Option.bind_eq_some_iff.mp hmsg
        obtain ⟨eid, hget⟩ := DbusObject.exists_property? hprop h.eid heid
        rw [hget, decide_eq_true hspeaks]
        exact .inr (.inr ⟨eid, rfl, rfl, hspeaks⟩)
      · rw [decide_eq_false hspeaks]
        exact .inr (.inl ⟨_, rfl⟩)
    · rw [if_neg htypes]
      exact .inl rfl
  · rw [if_neg heid]
    exact .inl rfl

theorem endpointArgs_acceptable (h : data.EndpointTyped) {eid : UInt64} (ha : data.Acceptable eid) :
    endpointArgs cfg data = .ok (data.driveArgs cfg eid) := by
  unfold endpointArgs readSocket readI2CBus
  rw [readEndpoint_acceptable ha, readProperty_of_offers h.addr ha.addr, readProperty_of_offers h.bus ha.bus]
  rfl

theorem endpointArgs_rejected (h : data.EndpointTyped) (hnot : ∀ eid, ¬ data.Acceptable eid) :
    endpointArgs cfg data = .error .next := by
  unfold endpointArgs readSocket readI2CBus
  by_cases haddr : data.Offers unixSocket "Address"
  · rw [readProperty_of_offers h.addr haddr]
    rcases readEndpoint_typed h with hread | ⟨eid, hread⟩ | ⟨eid, hread, heid, hnvme⟩
    · rw [hread]
      rfl
    · rw [hread]
      rfl
    · have hbus : ¬ data.Offers decoratorI2CDevice "Bus" := fun hbus => hnot eid ⟨heid, hnvme, haddr, hbus⟩
      rw [hread, readProperty_of_not_offers hbus]
      rfl
  · rw [readProperty_of_not_offers haddr]
    rcases readEndpoint_typed h with hread | ⟨eid, hread⟩ | ⟨eid, hread, _⟩
    · rw [hread]
      rfl
    · rw [hread]
      rfl
    · rw [hread]
      rfl

theorem accepted?_eq_some_iff {args : DriveArgs} :
    data.accepted? cfg = some args ↔ ∃ eid, data.Acceptable eid ∧ data.driveArgs cfg eid = args := by
  unfold DbusObject.accepted?
  rw [Option.bind_eq_some_iff]
  refine exists_congr fun eid => ⟨fun ⟨_, hargs⟩ => ?_, fun ⟨ha, hargs⟩ => ⟨ha.eid, ?_⟩⟩
  · by_cases ha : data.Acceptable eid
    · rw [if_pos ha] at hargs
      exact ⟨ha, Option.some.inj hargs⟩
    · rw [if_neg ha] at hargs
      cases hargs
  · rw [if_pos ha, hargs]

theorem endpointStep_eq {object : String × DbusObject} (h : object.2.EndpointTyped) (s : Drives) :
    endpointStep cfg s object = some ((object.2.accepted? cfg).elim s s.add) := by
  unfold endpointStep
  cases haccepted : object.2.accepted? cfg with
  | some args =>
      obtain ⟨eid, ha, rfl⟩ := accepted?_eq_some_iff.mp haccepted
      rw [endpointArgs_acceptable h ha]
      rfl
  | none =>
      have hnot : ∀ eid, ¬ object.2.Acceptable eid := by
        intro eid ha
        have hsome : object.2.accepted? cfg = some (object.2.driveArgs cfg eid) :=
          accepted?_eq_some_iff.mpr ⟨eid, ha, rfl⟩
        rw [haccepted] at hsome
        cases hsome
      rw [endpointArgs_rejected h hnot]
      rfl

end

/-! ## The map -/

/-- The endpoints of a sequence of snapshots, in the order in which they are processed. -/
def endpoints (snapshots : List ManagedObjectType) : List (String × DbusObject) := snapshots.flatMap (·.entries)

def offers (cfg : Config) (snapshots : List ManagedObjectType) : List DriveArgs :=
  (endpoints snapshots).filterMap fun object => object.2.accepted? cfg

def EndpointsTyped (snapshots : List ManagedObjectType) : Prop :=
  ∀ snapshot ∈ snapshots, ∀ object ∈ snapshot.entries, object.2.EndpointTyped

section
variable {cfg : Config} {snapshots : List ManagedObjectType} {s : Drives}

theorem foldlM_endpointStep {objects : List (String × DbusObject)} (h : ∀ object ∈ objects, object.2.EndpointTyped) :
    objects.foldlM (endpointStep cfg) s =
      some ((objects.filterMap fun object => object.2.accepted? cfg).foldl Drives.add s) := by
  induction objects generalizing s with
  | nil => rfl
  | cons object rest ih =>
      have hrest : ∀ o ∈ rest, o.2.EndpointTyped := fun o ho => h o (List.mem_cons_of_mem _ ho)
      rw [List.foldlM_cons, endpointStep_eq (h object List.mem_cons_self)]
      change rest.foldlM (endpointStep cfg) _ = _
      rw [ih hrest]
      cases haccepted : object.2.accepted? cfg with
      | none => simp only [List.filterMap_cons, haccepted, Option.elim_none]
      | some args => simp only [List.filterMap_cons, haccepted, Option.elim_some, List.foldl_cons]

theorem foldlM_handle (h : EndpointsTyped snapshots) :
    snapshots.foldlM (handleMCTPEndpoints cfg) s = some ((offers cfg snapshots).foldl Drives.add s) := by
  induction snapshots generalizing s with
  | nil => rfl
  | cons snapshot rest ih =>
      have hrest : EndpointsTyped rest := fun s' hs' => h s' (List.mem_cons_of_mem _ hs')
      rw [List.foldlM_cons, handleMCTPEndpoints, foldlM_endpointStep (h snapshot List.mem_cons_self)]
      change rest.foldlM (handleMCTPEndpoints cfg) _ = _
      rw [ih hrest, ← List.foldl_append]
      simp only [offers, endpoints, List.flatMap_cons, List.filterMap_append]

def Drives.Indexed (s : Drives) : Prop := s.driveMap = s.created.zipIdx.map fun a => (a.1.eid, a.2)

theorem Drives.Indexed.eids (h : s.Indexed) : s.driveMap.map Prod.fst = s.created.map DriveArgs.eid := by
  unfold Drives.Indexed at h
  calc s.driveMap.map Prod.fst = (s.created.zipIdx.map Prod.fst).map DriveArgs.eid := by
        rw [h, List.map_map, List.map_map]
        rfl
    _ = s.created.map DriveArgs.eid := by rw [List.zipIdx_map_fst]

theorem Drives.Indexed.places (h : s.Indexed) : s.driveMap.map Prod.snd = List.range s.created.length := by
  unfold Drives.Indexed at h
  calc s.driveMap.map Prod.snd = s.created.zipIdx.map Prod.snd := by
        rw [h, List.map_map]
        rfl
    _ = List.range s.created.length := by rw [List.zipIdx_map_snd, List.range_eq_range']

theorem Drives.Indexed.created (h : s.Indexed) {eid : UInt8} {i : Nat} (hentry : (eid, i) ∈ s.driveMap) :
    ∃ args, s.created[i]? = some args ∧ args.eid = eid := by
  unfold Drives.Indexed at h
  rw [h] at hentry
  obtain ⟨⟨args, j⟩, hargs, heq⟩ := List.mem_map.mp hentry
  obtain ⟨rfl, rfl⟩ := Prod.mk.inj heq
  exact ⟨args, List.mem_zipIdx_iff_getElem?.mp hargs, rfl⟩

theorem created_add (h : s.Indexed) (args : DriveArgs) : (s.add args).created = keep DriveArgs.eid s.created args := by
  have hmem : (∃ entry ∈ s.driveMap, entry.1 = args.eid) ↔ ∃ b ∈ s.created, b.eid = args.eid := by
    rw [← List.mem_map, ← List.mem_map, h.eids]
  unfold Drives.add keep
  by_cases hknown : ∃ b ∈ s.created, b.eid = args.eid
  · rw [if_pos (hmem.mpr hknown), if_pos hknown]
  · rw [if_neg fun hentry => hknown (hmem.mp hentry), if_neg hknown]

theorem indexed_add (h : s.Indexed) (args : DriveArgs) : (s.add args).Indexed := by
  unfold Drives.add
  split
  · exact h
  · unfold Drives.Indexed at h ⊢
    rw [h, List.zipIdx_append, List.map_append]
    simp

theorem created_foldl_add (h : s.Indexed) (offered : List DriveArgs) : (offered.foldl Drives.add s).Indexed ∧
    (offered.foldl Drives.add s).created = offered.foldl (keep DriveArgs.eid) s.created := by
  induction offered generalizing s with
  | nil => exact ⟨h, rfl⟩
  | cons args rest ih =>
      obtain ⟨hindexed, hcreated⟩ := ih (indexed_add h args)
      refine ⟨hindexed, ?_⟩
      rw [List.foldl_cons, List.foldl_cons, hcreated, created_add h]

theorem Drives.Indexed.ext {s' : Drives} (h : s.Indexed) (h' : s'.Indexed) (hcreated : s.created = s'.created) :
    s = s' := by
  unfold Drives.Indexed at h h'
  cases s
  cases s'
  simp_all

/-! ## Sequences of snapshots -/

/-- The map after a sequence of snapshots. -/
structure Registered (cfg : Config) (snapshots : List ManagedObjectType) (s : Drives) : Prop where
  /-- Each EID has at most one entry, -/
  unique : (s.driveMap.map Prod.fst).Nodup
  /-- and it has one if it appeared in an acceptable endpoint. -/
  appeared : ∀ eid, eid ∈ s.driveMap.map Prod.fst ↔
    ∃ snapshot ∈ snapshots, ∃ object ∈ snapshot.entries, object.2.Acceptable eid.toUInt64
  /-- Its drive is built from the first of these endpoints. -/
  first : ∀ eid i, (eid, i) ∈ s.driveMap → ∃ object,
    (endpoints snapshots).find? (fun object => object.2.Acceptable eid.toUInt64) = some object ∧
      s.created[i]? = some (object.2.driveArgs cfg eid.toUInt64)
  /-- No drive is constructed twice, -/
  once : (s.created.map DriveArgs.eid).Nodup
  /-- and each one that is constructed is in the map. -/
  entered : s.driveMap.map Prod.snd = List.range s.created.length

theorem toUInt64_toUInt8 {eid : UInt64} (h : eid.toNat < 256) : eid.toUInt8.toUInt64 = eid := by
  rw [← UInt64.toNat_inj, UInt8.toNat_toUInt64, UInt64.toNat_toUInt8]
  exact Nat.mod_eq_of_lt h

theorem toUInt8_toUInt64 (eid : UInt8) : eid.toUInt64.toUInt8 = eid := by
  rw [← UInt8.toNat_inj, UInt64.toNat_toUInt8, UInt8.toNat_toUInt64]
  exact Nat.mod_eq_of_lt eid.toNat_lt

theorem accepted?_eid {data : DbusObject} (h : data.EndpointTyped) (eid : UInt8) :
    (data.accepted? cfg).any (fun args => args.eid = eid) = decide (data.Acceptable eid.toUInt64) := by
  rw [Bool.eq_iff_iff, Option.any_eq_true, decide_eq_true_eq]
  constructor
  · rintro ⟨args, hargs, heid⟩
    obtain ⟨eid', ha, rfl⟩ := accepted?_eq_some_iff.mp hargs
    have heq : eid'.toUInt8 = eid := of_decide_eq_true heid
    rw [← heq, toUInt64_toUInt8 (h.byte eid' ha.eid)]
    exact ha
  · intro ha
    refine ⟨_, accepted?_eq_some_iff.mpr ⟨_, ha, rfl⟩, decide_eq_true ?_⟩
    exact toUInt8_toUInt64 eid

theorem mem_endpoints {object : String × DbusObject} :
    object ∈ endpoints snapshots ↔ ∃ snapshot ∈ snapshots, object ∈ snapshot.entries := List.mem_flatMap

theorem exists_endpoint {P : String × DbusObject → Prop} : (∃ object ∈ endpoints snapshots, P object) ↔
    ∃ snapshot ∈ snapshots, ∃ object ∈ snapshot.entries, P object := by
  constructor
  · rintro ⟨object, hobject, hP⟩
    obtain ⟨snapshot, hsnapshot, hobject⟩ := mem_endpoints.mp hobject
    exact ⟨snapshot, hsnapshot, object, hobject, hP⟩
  · rintro ⟨snapshot, hsnapshot, object, hobject, hP⟩
    exact ⟨object, mem_endpoints.mpr ⟨snapshot, hsnapshot, hobject⟩, hP⟩

theorem typed_of_mem (h : EndpointsTyped snapshots) {object : String × DbusObject}
    (hobject : object ∈ endpoints snapshots) : object.2.EndpointTyped := by
  obtain ⟨snapshot, hsnapshot, hobject⟩ := mem_endpoints.mp hobject
  exact h snapshot hsnapshot object hobject

/-- The first drive that is called for with an EID is that of the first endpoint that is acceptable with it. -/
theorem find?_offers (h : EndpointsTyped snapshots) (eid : UInt8) :
    (offers cfg snapshots).find? (·.eid = eid) =
      ((endpoints snapshots).find? fun object => object.2.Acceptable eid.toUInt64).map
        (·.2.driveArgs cfg eid.toUInt64) := by
  unfold offers
  rw [List.find?_filterMap]
  have hpred : (endpoints snapshots).find? (fun object => (object.2.accepted? cfg).any fun args => args.eid = eid) =
      (endpoints snapshots).find? fun object => object.2.Acceptable eid.toUInt64 :=
    List.find?_congr fun object hobject => accepted?_eid (typed_of_mem h hobject) eid
  rw [hpred]
  cases hfind : (endpoints snapshots).find? fun object => object.2.Acceptable eid.toUInt64 with
  | none => rfl
  | some object =>
      have ha := List.find?_some hfind
      rw [decide_eq_true_eq] at ha
      exact accepted?_eq_some_iff.mpr ⟨_, ha, rfl⟩

theorem registered_foldl (h : EndpointsTyped snapshots) :
    Registered cfg snapshots ((offers cfg snapshots).foldl Drives.add .empty) := by
  have hempty : Drives.empty.Indexed := rfl
  obtain ⟨hindexed, hcreated⟩ := created_foldl_add hempty (offers cfg snapshots)
  have honce : (((offers cfg snapshots).foldl Drives.add .empty).created.map DriveArgs.eid).Nodup := by
    rw [hcreated]
    exact nodup_foldl_keep List.nodup_nil
  refine ⟨?_, ?_, ?_, honce, hindexed.places⟩
  · rw [hindexed.eids]
    exact honce
  · intro eid
    have hnone : ¬ eid ∈ Drives.empty.created.map DriveArgs.eid := List.not_mem_nil
    rw [hindexed.eids, hcreated, mem_keys_foldl_keep, or_iff_right hnone, mem_keys_iff, find?_offers h,
      Option.isSome_map, List.find?_isSome, ← exists_endpoint]
    simp only [decide_eq_true_eq]
  · intro eid i hentry
    obtain ⟨args, hargs, rfl⟩ := hindexed.created hentry
    have hfirst := find?_of_mem honce (List.mem_of_getElem? hargs)
    rw [hcreated, find?_foldl_keep, find?_offers h] at hfirst
    obtain ⟨object, hobject, heq⟩ := Option.map_eq_some_iff.mp hfirst
    exact ⟨object, hobject, hargs.trans (congrArg some heq.symm)⟩

theorem foldl_add_of_known (hs : s.Indexed) {offered : List DriveArgs}
    (hknown : ∀ args ∈ offered, args.eid ∈ s.created.map DriveArgs.eid) : offered.foldl Drives.add s = s := by
  obtain ⟨hindexed, hcreated⟩ := created_foldl_add hs offered
  exact hindexed.ext hs (hcreated.trans (foldl_keep_of_known hknown))

theorem prefix_foldl_add (hs : s.Indexed) (offered : List DriveArgs) :
    s.created <+: (offered.foldl Drives.add s).created ∧ s.driveMap <+: (offered.foldl Drives.add s).driveMap := by
  obtain ⟨hindexed, hcreated⟩ := created_foldl_add hs offered
  obtain ⟨added, hadded⟩ : s.created <+: (offered.foldl Drives.add s).created := by
    rw [hcreated]
    exact prefix_foldl_keep
  refine ⟨⟨added, hadded⟩, ?_⟩
  unfold Drives.Indexed at hs hindexed
  rw [hindexed, ← hadded, hs, List.zipIdx_append, List.map_append]
  exact List.prefix_append _ _

theorem offers_append (before after : List ManagedObjectType) :
    offers cfg (before ++ after) = offers cfg before ++ offers cfg after := by
  simp only [offers, endpoints, List.flatMap_append, List.filterMap_append]

/-- Endpoints that call for no drive may be left out. -/
theorem offers_filter {p : String × DbusObject → Bool}
    (hp : ∀ object ∈ endpoints snapshots, ∀ eid, object.2.Acceptable eid → p object = true) :
    offers cfg (snapshots.map (·.filter p)) = offers cfg snapshots := by
  have hendpoints : endpoints (snapshots.map (·.filter p)) = (endpoints snapshots).filter p := by
    unfold endpoints
    rw [List.flatMap_map, List.filter_flatMap]
    rfl
  unfold offers
  rw [hendpoints, List.filterMap_filter]
  refine List.filterMap_congr fun object hobject => ?_
  cases haccepted : object.2.accepted? cfg with
  | none => simp
  | some args =>
      obtain ⟨eid, ha, _⟩ := accepted?_eq_some_iff.mp haccepted
      rw [if_pos (hp object hobject eid ha)]

theorem typed_filter (h : EndpointsTyped snapshots) (p : String × DbusObject → Bool) :
    EndpointsTyped (snapshots.map (·.filter p)) := by
  intro snapshot hsnapshot object hobject
  obtain ⟨snapshot, hmem, rfl⟩ := List.mem_map.mp hsnapshot
  exact h snapshot hmem object (List.mem_filter.mp hobject).1

/-- **Endpoints.** A sequence of snapshots does not throw and leaves one drive for each EID of an acceptable endpoint.
Each of the snapshots can be processed again without any change; what was in the map after some of them is still there;
and it makes no difference if endpoints that are not acceptable are left out. -/
theorem registered_of_snapshots (h : EndpointsTyped snapshots) :
    ∃ s, snapshots.foldlM (handleMCTPEndpoints cfg) .empty = some s ∧ Registered cfg snapshots s ∧
      (∀ snapshot ∈ snapshots, handleMCTPEndpoints cfg s snapshot = some s) ∧
      (∀ before after, before ++ after = snapshots → ∃ s', before.foldlM (handleMCTPEndpoints cfg) .empty = some s' ∧
        s'.created <+: s.created ∧ s'.driveMap <+: s.driveMap) ∧
      ∀ p : String × DbusObject → Bool,
        (∀ object ∈ endpoints snapshots, ∀ eid, object.2.Acceptable eid → p object = true) →
        (snapshots.map (·.filter p)).foldlM (handleMCTPEndpoints cfg) .empty = some s := by
  have hempty : Drives.empty.Indexed := rfl
  obtain ⟨hindexed, hcreated⟩ := created_foldl_add hempty (offers cfg snapshots)
  refine ⟨_, foldlM_handle h, registered_foldl h, fun snapshot hsnapshot => ?_, fun before after heq => ?_, fun p hp => ?_⟩
  · have hknown : ∀ args ∈ snapshot.entries.filterMap fun object => object.2.accepted? cfg,
        args.eid ∈ ((offers cfg snapshots).foldl Drives.add .empty).created.map DriveArgs.eid := by
      intro args hargs
      obtain ⟨object, hobject, haccepted⟩ := List.mem_filterMap.mp hargs
      have hoffered : args ∈ offers cfg snapshots :=
        List.mem_filterMap.mpr ⟨object, mem_endpoints.mpr ⟨snapshot, hsnapshot, hobject⟩, haccepted⟩
      rw [hcreated, mem_keys_foldl_keep]
      exact .inr (List.mem_map_of_mem hoffered)
    rw [handleMCTPEndpoints, foldlM_endpointStep (h snapshot hsnapshot), foldl_add_of_known hindexed hknown]
  · subst heq
    have htyped : EndpointsTyped before := fun snapshot hmem => h snapshot (List.mem_append_left _ hmem)
    refine ⟨_, foldlM_handle htyped, ?_⟩
    rw [offers_append, List.foldl_append]
    exact prefix_foldl_add (created_foldl_add hempty _).1 _
  · rw [foldlM_handle (typed_filter h p), offers_filter hp]

/-- An endpoint that speaks NVMe-MI, with a socket, and one that does not. -/
def endpointSnapshot : ManagedObjectType :=
  (FlatMap.empty.insert "/xyz/openbmc_project/mctp/0/10"
    ((FlatMap.empty.insert mctpEpInterface
      ((FlatMap.empty.insert "EID" (.uint64 10)).insert "SupportedMessageTypes" (.bytes [0, 4]))).insert
        unixSocket (FlatMap.empty.insert "Address" (.bytes [0, 109])))).insert "/xyz/openbmc_project/mctp/0/11"
    (FlatMap.empty.insert mctpEpInterface
      ((FlatMap.empty.insert "EID" (.uint64 11)).insert "SupportedMessageTypes" (.bytes [0])))

/-- The theorem at two snapshots of them. -/
theorem registered_of_snapshots_twice : ∃ s,
    [endpointSnapshot, endpointSnapshot].foldlM (handleMCTPEndpoints .standard) .empty = some s ∧
      10 ∈ s.driveMap.map Prod.fst ∧ 11 ∉ s.driveMap.map Prod.fst := by
  have htyped : EndpointsTyped [endpointSnapshot, endpointSnapshot] := by
    intro snapshot hsnapshot
    have heq : snapshot = endpointSnapshot := by simpa using hsnapshot
    rw [heq]
    have hbyte : ∀ object ∈ endpointSnapshot.entries,
        (object.2.property? (·.uint64?) mctpEpInterface "EID").all (fun eid => eid.toNat < 256) = true := by
      decide +kernel
    refine fun object hobject => ⟨?_, ?_, ?_, ?_, fun eid heid => ?_⟩
    · revert object
      decide +kernel
    · revert object
      decide +kernel
    · revert object
      decide +kernel
    · revert object
      decide +kernel
    · exact of_decide_eq_true ((Option.all_eq_true _ _).mp (hbyte object hobject) eid heid)
  obtain ⟨s, hs, hregistered, _⟩ := registered_of_snapshots htyped
  refine ⟨s, hs, (hregistered.appeared 10).mpr ?_, fun h => ?_⟩
  · decide +kernel
  · have hnot := (hregistered.appeared 11).mp h
    revert hnot
    decide +kernel

end
end NvmeManager
