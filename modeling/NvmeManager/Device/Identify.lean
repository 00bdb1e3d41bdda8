import NvmeManager.Device.Failed

/-!
# The length of an identify

The option `identifyRspLength` is a 32-bit number, and `read_length` has 16 bits: zero and the lengths from a whole
identify on ask for all the data, the others for a part of it.

* `IdField` : the fields of `nvme_id_ctrl` that the callback reads; `parse_congr` : it reads nothing else;
* `Identifies` : libnvme answers with the identify data of a controller, or with the part that is asked for;
* `replies_identify` : the span that the callback receives;
* `PublishesFull` : the fields lie in that span, and the drive publishes what a whole identify tells it;
* `publishesFull_iff` : that is so for the lengths that ask for all the data or for the fields.
-/

namespace NvmeManager

/-! ## Fields -/

section
variable {data data' : List UInt8} {offset : Nat}

theorem bytesAt_congr {size : Nat} (h : ∀ i < size, byteAt data (offset + i) = byteAt data' (offset + i)) :
    bytesAt data offset size = bytesAt data' offset size := by
  apply List.map_congr_left
  intro i hi
  exact h i (List.mem_range.mp hi)

end

/-- The fields of `nvme_id_ctrl` that are read. -/
inductive IdField
  | vid
  | sn
  | mn
  | fr
  | tnvmcap
  | sanicap
  deriving DecidableEq

namespace IdField

def offset : IdField → Nat
  | vid => 0
  | sn => 4
  | mn => 24
  | fr => 64
  | tnvmcap => 280
  | sanicap => 328

def size : IdField → Nat
  | vid => 2
  | sn => 20
  | mn => 40
  | fr => 8
  | tnvmcap => 16
  | sanicap => 4

def Within (f : IdField) (span : List UInt8) : Prop := f.offset + f.size ≤ span.length

/-- The last of them ends at 332. -/
theorem end_le (f : IdField) : f.offset + f.size ≤ 332 := by
  cases f with
  | vid | sn | mn | fr | tnvmcap | sanicap => decide

theorem within_iff {span : List UInt8} : (∀ f : IdField, f.Within span) ↔ 332 ≤ span.length := by
  constructor
  · intro h
    exact h sanicap
  · intro h f
    exact Nat.le_trans f.end_le h

end IdField

/-- The callback reads these fields, and nothing else. -/
theorem IdCtrl.parse_congr {data data' : List UInt8}
    (h : ∀ (f : IdField), ∀ i < f.size, byteAt data (f.offset + i) = byteAt data' (f.offset + i)) :
    IdCtrl.parse data = IdCtrl.parse data' := by
  have hvid : u16At data 0 = u16At data' 0 := u16At_congr (h .vid)
  have hsn : bytesAt data 4 20 = bytesAt data' 4 20 := bytesAt_congr (h .sn)
  have hmn : bytesAt data 24 40 = bytesAt data' 24 40 := bytesAt_congr (h .mn)
  have hfr : bytesAt data 64 8 = bytesAt data' 64 8 := bytesAt_congr (h .fr)
  have htnvmcap : u64At data 280 = u64At data' 280 := by
    apply u64At_congr
    intro i hi
    exact h .tnvmcap i (Nat.lt_of_lt_of_le hi (by decide))
  have hsanicap : u32At data 328 = u32At data' 328 := u32At_congr (h .sanicap)
  unfold IdCtrl.parse
  rw [hvid, hsn, hmn, hfr, htnvmcap, hsanicap]

theorem IdCtrl.parse_take (data : List UInt8) {n : Nat} (hn : 332 ≤ n) :
    IdCtrl.parse (data.take n) = IdCtrl.parse data := by
  apply IdCtrl.parse_congr
  intro f i hi
  apply byteAt_take
  have hend := f.end_le
  omega

/-! ## Replies -/

/-- libnvme answers with the identify data of a controller, or with as much of its front as is asked for. -/
structure Identifies (lib : Libnvme) (ctrl : Ctrl) (data : List UInt8) : Prop where
  size : data.length = NVME_IDENTIFY_DATA_SIZE
  full : ∀ k, (lib k (.identify ctrl .ctrl Command.NVME_NSID_NONE 0)).rc = 0 ∧
    (lib k (.identify ctrl .ctrl Command.NVME_NSID_NONE 0)).out.data = data
  part : ∀ k n, (lib k (.identifyPartial ctrl .ctrl Command.NVME_NSID_NONE 0 0 n)).rc = 0 ∧
    (lib k (.identifyPartial ctrl .ctrl Command.NVME_NSID_NONE 0 0 n)).out.data = data.take n

section
variable {cfg : Config} {lib : Libnvme} {ctrl : Ctrl} {data : List UInt8} (errno : Int) (ep : Endpoint)

theorem posted_adminIdentifyFull (h : Identifies lib ctrl data) :
    ((NVMeMi.adminIdentifyFull ctrl .ctrl Command.NVME_NSID_NONE 0).exec lib (.start errno ep)).2.posted =
      [⟨.noError, .span data⟩] := by
  obtain ⟨hrc, hdata⟩ := h.full 0
  have hfill : (lib 0 (.identify ctrl .ctrl Command.NVME_NSID_NONE 0)).fill NVME_IDENTIFY_DATA_SIZE
      (zeros NVME_IDENTIFY_DATA_SIZE) = data := by
    rw [NVMeMi.fill_of_rc hrc, hdata, List.take_of_length_le (Nat.le_of_eq h.size)]
    apply overlay_eq
    rw [h.size, length_zeros]
  unfold NVMeMi.adminIdentifyFull NVMeMi.reportResult
  simp [hrc, hfill]

theorem posted_adminIdentifyPartial (h : Identifies lib ctrl data) {len : UInt16} (hlen : len.toNat ≤ NVME_IDENTIFY_DATA_SIZE) :
    ((NVMeMi.adminIdentifyPartial ctrl .ctrl Command.NVME_NSID_NONE 0 len).exec lib (.start errno ep)).2.posted =
      [⟨.noError, .span (data.take len.toNat)⟩] := by
  obtain ⟨hrc, hdata⟩ := h.part 0 len.toNat
  have hfill : (lib 0 (.identifyPartial ctrl .ctrl Command.NVME_NSID_NONE 0 0 len.toNat)).fill len.toNat
      (zeros len.toNat) = data.take len.toNat := by
    rw [NVMeMi.fill_of_rc hrc, hdata, List.take_take, Nat.min_self]
    apply overlay_eq
    rw [List.length_take, h.size, length_zeros, Nat.min_eq_left hlen]
  unfold NVMeMi.adminIdentifyPartial NVMeMi.reportResult NVMeMi.identifyPartialSize
  simp [hrc, hfill]

theorem identifyUpdate_congr {v : DriveView} {bytes bytes' : List UInt8} (h : IdCtrl.parse bytes = IdCtrl.parse bytes') :
    v.identifyUpdate bytes = v.identifyUpdate bytes' := by
  unfold DriveView.identifyUpdate
  rw [h]

def Config.readLength (cfg : Config) : Nat := cfg.identifyRspLength.toNat % 65536

theorem replies_identify (h : Identifies lib ctrl data) : (Command.identify ctrl).replies cfg lib errno ep =
    [⟨.noError, .span (if 0 < cfg.readLength ∧ cfg.readLength < NVME_IDENTIFY_DATA_SIZE then data.take cfg.readLength
      else data)⟩] := by
  have hlen : cfg.identifyRspLength.toUInt16.toNat = cfg.readLength := UInt32.toNat_toUInt16 _
  have hpos : cfg.identifyRspLength.toUInt16 > 0 ↔ 0 < cfg.readLength := by
    rw [gt_iff_lt, UInt16.lt_iff_toNat_lt, hlen]
    rfl
  change ((NVMeMi.adminIdentify ctrl .ctrl Command.NVME_NSID_NONE 0 cfg.identifyRspLength.toUInt16).exec lib
    (.start errno ep)).2.posted = _
  unfold NVMeMi.adminIdentify
  by_cases hpart : 0 < cfg.readLength ∧ cfg.readLength < NVME_IDENTIFY_DATA_SIZE
  · rw [if_pos hpart, if_pos ⟨hpos.mpr hpart.1, by rw [hlen]; exact hpart.2⟩, ← hlen]
    apply posted_adminIdentifyPartial errno ep h
    rw [hlen]
    exact Nat.le_of_lt hpart.2
  · have hfull : ¬ (cfg.identifyRspLength.toUInt16 > 0 ∧ cfg.identifyRspLength.toUInt16.toNat < NVME_IDENTIFY_DATA_SIZE) := by
      rw [hpos, hlen]
      exact hpart
    rw [if_neg hpart, if_neg hfull]
    exact posted_adminIdentifyFull errno ep h

/-- The fields lie in the span that the callback of the identify receives, and the drive publishes what it publishes after
a whole identify. -/
def PublishesFull (cfg : Config) (lib : Libnvme) (errno : Int) (ep : Endpoint) (ctrl : Ctrl) (d : NVMeDevice) : Prop :=
  ∃ r full, (Command.identify ctrl).replies cfg lib errno ep = [r] ∧
    ((NVMeMi.adminIdentifyFull ctrl .ctrl Command.NVME_NSID_NONE 0).exec lib (.start errno ep)).2.posted = [full] ∧
    (∀ f : IdField, f.Within r.payload.bytes) ∧
    (d.identified cfg r).toDriveView = (d.identified cfg full).toDriveView

/-- **Length of an identify.** The drive publishes what a whole identify tells it exactly if its length is zero, or has the
fields. -/
theorem publishesFull_iff (h : Identifies lib ctrl data) (d : NVMeDevice) :
    PublishesFull cfg lib errno ep ctrl d ↔
      cfg.identifyRspLength.toNat % 65536 = 0 ∨ 332 ≤ cfg.identifyRspLength.toNat % 65536 := by
  change _ ↔ cfg.readLength = 0 ∨ 332 ≤ cfg.readLength
  unfold PublishesFull
  rw [replies_identify errno ep h, posted_adminIdentifyFull errno ep h]
  have hsize : data.length = 4096 := h.size
  constructor
  · rintro ⟨r, full, hr, _, hwithin, _⟩
    obtain rfl := List.singleton_inj.mp hr
    have hspan := IdField.within_iff.mp hwithin
    dsimp only [Payload.bytes] at hspan
    by_cases hpart : 0 < cfg.readLength ∧ cfg.readLength < NVME_IDENTIFY_DATA_SIZE
    · rw [if_pos hpart, List.length_take, hsize] at hspan
      omega
    · unfold NVME_IDENTIFY_DATA_SIZE at hpart
      omega
  · intro hlen
    refine ⟨_, _, rfl, rfl, IdField.within_iff.mpr ?_, ?_⟩
    · dsimp only [Payload.bytes]
      by_cases hpart : 0 < cfg.readLength ∧ cfg.readLength < NVME_IDENTIFY_DATA_SIZE
      · rw [if_pos hpart, List.length_take, hsize]
        omega
      · rw [if_neg hpart, hsize]
        omega
    · by_cases hpart : 0 < cfg.readLength ∧ cfg.readLength < NVME_IDENTIFY_DATA_SIZE
      · rw [if_pos hpart]
        apply identifyUpdate_congr
        apply IdCtrl.parse_take
        omega
      · rw [if_neg hpart]

end

/-! ## Two lengths -/

/-- The identify data of a controller with a capacity and with the crypto erase. -/
def identifyData : List UInt8 := zeros 280 ++ [0, 0, 0, 1] ++ zeros 44 ++ [1] ++ zeros 3767

def identifiedDrive : Libnvme := .writing fun _ c =>
  match c with
  | .identify .. => { data := identifyData }
  | .identifyPartial _ _ _ _ offset size => { data := (identifyData.drop offset).take size }
  | _ => {}

theorem identifies_identifiedDrive (ctrl : Ctrl) : Identifies identifiedDrive ctrl identifyData := by
  refine ⟨?_, fun _ => ⟨rfl, rfl⟩, fun _ _ => ⟨rfl, rfl⟩⟩
  simp [identifyData, NVME_IDENTIFY_DATA_SIZE]

/-- The theorem at the default length. -/
theorem publishesFull_iff_standard : PublishesFull .standard identifiedDrive 0 ⟨1, [⟨1, 7⟩], 5000⟩ ⟨1, 7⟩ .first :=
  (publishesFull_iff 0 _ (identifies_identifiedDrive _) _).mpr (.inr (by decide))

def shortIdentify : Config := { Config.standard with identifyRspLength := 256 }

/-- They end before the capacity and before the methods of the sanitize. -/
theorem short_identify_beyond_span :
    (Command.identify ⟨1, 7⟩).replies shortIdentify identifiedDrive 0 ⟨1, [⟨1, 7⟩], 5000⟩ =
      [⟨.noError, .span (identifyData.take 256)⟩] ∧
      ¬ IdField.tnvmcap.Within (identifyData.take 256) ∧ ¬ IdField.sanicap.Within (identifyData.take 256) ∧
      ¬ PublishesFull shortIdentify identifiedDrive 0 ⟨1, [⟨1, 7⟩], 5000⟩ ⟨1, 7⟩ .first := by
  have hreplies : (Command.identify ⟨1, 7⟩).replies shortIdentify identifiedDrive 0 ⟨1, [⟨1, 7⟩], 5000⟩ =
      [⟨.noError, .span (identifyData.take 256)⟩] := replies_identify 0 _ (identifies_identifiedDrive _)
  have hlength : (identifyData.take 256).length ≤ 256 := List.length_take_le _ _
  have hcapacity : ¬ IdField.tnvmcap.Within (identifyData.take 256) := by
    intro hwithin
    exact absurd (Nat.le_trans hwithin hlength) (by decide)
  have hmethods : ¬ IdField.sanicap.Within (identifyData.take 256) := by
    intro hwithin
    exact absurd (Nat.le_trans hwithin hlength) (by decide)
  refine ⟨hreplies, hcapacity, hmethods, ?_⟩
  rintro ⟨r, full, hr, _, hwithin, _⟩
  rw [hreplies] at hr
  obtain rfl := List.singleton_inj.mp hr
  exact hmethods (hwithin .sanicap)

end NvmeManager
