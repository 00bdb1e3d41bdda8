import NvmeManager.Lib.Layout
import NvmeManager.Device.Identify
import NvmeManager.Device.Sources

/-!
# Identify data, written and read

* `bytesAt_eq`, `toNat_u16At`, `toNat_u32At`, `toNat_u64At` : what is read at an offset is a part of the data, or the
  number that it stands for;
* `IdField.layout` : the fields of `nvme_id_ctrl` that are read do not overlap;
* `Padded` : a text that is filled up with blanks; `stripString_bytes` : it is read back without them;
* `Controller` : what a controller says of itself; `Controller.data` : its identify data; `parse_data` : the callback
  reads all of it back;
* `Libnvme.Reads` : a libnvme behind which there is the controller; `reads_of_executed` : every identify that succeeds
  then says what the controller says.
-/

namespace NvmeManager

/-! ## Numbers -/

section
variable {data : List UInt8} {i : Nat}

theorem bytesAt_eq {offset size : Nat} (h : offset + size ≤ data.length) :
    bytesAt data offset size = (data.drop offset).take size := by
  apply List.ext_getElem
  · rw [List.length_take, List.length_drop]
    simp [bytesAt]
    omega
  · intro j hj hj'
    have hlt : offset + j < data.length := by
      simp [bytesAt] at hj
      omega
    rw [List.getElem_take, List.getElem_drop]
    simp [bytesAt, byteAt, hlt]

theorem bytesAt_add (data : List UInt8) (i m n : Nat) :
    bytesAt data i (m + n) = bytesAt data i m ++ bytesAt data (i + m) n := by
  unfold bytesAt
  rw [List.range_add, List.map_append, List.map_map]
  congr 1
  apply List.map_congr_left
  intro j _
  rw [Function.comp_apply, Nat.add_assoc]

theorem length_bytesAt (data : List UInt8) (i n : Nat) : (bytesAt data i n).length = n := by simp [bytesAt]

/-- The two halves of a number do not overlap. -/
theorem or_shift_eq {low high k : Nat} (h : low < 2 ^ k) : low ||| high <<< k = low + 2 ^ k * high := by
  rw [Nat.or_comm, ← Nat.shiftLeft_add_eq_or_of_lt h, Nat.shiftLeft_eq, Nat.add_comm, Nat.mul_comm]

theorem toNat_u16At (data : List UInt8) (i : Nat) : (u16At data i).toNat = valueLE (bytesAt data i 2) := by
  have hlow := (byteAt data i).toNat_lt
  have hhigh := (byteAt data (i + 1)).toNat_lt
  have hshift : (byteAt data (i + 1)).toNat <<< 8 < 2 ^ 16 := by
    rw [Nat.shiftLeft_eq]
    omega
  unfold u16At
  rw [UInt16.toNat_or, UInt16.toNat_shiftLeft, UInt8.toNat_toUInt16, UInt8.toNat_toUInt16]
  change (byteAt data i).toNat ||| (byteAt data (i + 1)).toNat <<< 8 % 2 ^ 16 =
    (byteAt data i).toNat + 256 * ((byteAt data (i + 1)).toNat + 256 * 0)
  rw [Nat.mod_eq_of_lt hshift, or_shift_eq hlow]
  omega

theorem toNat_u32At (data : List UInt8) (i : Nat) : (u32At data i).toNat = valueLE (bytesAt data i 4) := by
  have hlow := (u16At data i).toNat_lt
  have hhigh := (u16At data (i + 2)).toNat_lt
  have hshift : (u16At data (i + 2)).toNat <<< 16 < 2 ^ 32 := by
    rw [Nat.shiftLeft_eq]
    omega
  rw [bytesAt_add data i 2 2, valueLE_append, length_bytesAt, ← toNat_u16At, ← toNat_u16At, show 256 ^ 2 = 2 ^ 16 by rfl]
  unfold u32At
  rw [UInt32.toNat_or, UInt32.toNat_shiftLeft, UInt16.toNat_toUInt32, UInt16.toNat_toUInt32]
  change (u16At data i).toNat ||| (u16At data (i + 2)).toNat <<< 16 % 2 ^ 32 = _
  rw [Nat.mod_eq_of_lt hshift, or_shift_eq hlow]

theorem toNat_u64At (data : List UInt8) (i : Nat) : (u64At data i).toNat = valueLE (bytesAt data i 8) := by
  have hlow := (u32At data i).toNat_lt
  have hhigh := (u32At data (i + 4)).toNat_lt
  have hshift : (u32At data (i + 4)).toNat <<< 32 < 2 ^ 64 := by
    rw [Nat.shiftLeft_eq]
    omega
  rw [bytesAt_add data i 4 4, valueLE_append, length_bytesAt, ← toNat_u32At, ← toNat_u32At, show 256 ^ 4 = 2 ^ 32 by rfl]
  unfold u64At
  rw [UInt64.toNat_or, UInt64.toNat_shiftLeft, UInt32.toNat_toUInt64, UInt32.toNat_toUInt64]
  change (u32At data i).toNat ||| (u32At data (i + 4)).toNat <<< 32 % 2 ^ 64 = _
  rw [Nat.mod_eq_of_lt hshift, or_shift_eq hlow]

end

/-! ## Texts -/

/-- A text of at most `n` bytes that does not end with a blank. -/
structure Padded (n : Nat) where
  text : List UInt8
  fits : text.length ≤ n
  trimmed : text.getLast? ≠ some 0x20

namespace Padded
variable {n : Nat} (p : Padded n)

/-- The field: the text, filled up with blanks. -/
def bytes : List UInt8 := p.text ++ List.replicate (n - p.text.length) 0x20

@[simp] theorem length_bytes : p.bytes.length = n := by
  rw [bytes, List.length_append, List.length_replicate, Nat.add_sub_cancel' p.fits]

theorem stripString_bytes : stripString p.bytes = p.text := by
  have hblanks : ∀ b ∈ List.replicate (n - p.text.length) (0x20 : UInt8), decide (b = 0x20) = true := by
    intro b hb
    rw [(List.mem_replicate.mp hb).2]
    rfl
  have hstop : p.text.reverse.dropWhile (· = 0x20) = p.text.reverse := by
    cases hrev : p.text.reverse with
    | nil => rfl
    | cons b rest =>
        have hlast : p.text.getLast? = some b := by rw [← List.head?_reverse, hrev, List.head?_cons]
        have hne : b ≠ 0x20 := by
          rintro rfl
          exact p.trimmed hlast
        rw [List.dropWhile_cons_of_neg (by simpa using hne)]
  unfold stripString bytes
  rw [List.reverse_append, List.reverse_replicate, List.dropWhile_append_of_pos hblanks, hstop, List.reverse_reverse]

end Padded

/-! ## Controllers -/

def IdField.layout : Layout IdField where
  fields := [vid, sn, mn, fr, tnvmcap, sanicap]
  offset := offset
  size := size
  complete f := by cases f <;> decide
  disjoint f g i hf hf' hg hg' := by
    cases f <;> cases g <;> simp only [offset, size] at hf hf' hg hg' <;> first | rfl | omega

/-- What a controller says of itself. -/
structure Controller where
  vid : UInt16
  serial : Padded 20
  model : Padded 40
  version : List UInt8
  version_length : version.length = 8
  /-- The capacity is a number of sixteen bytes. -/
  capacity : UInt64
  capacityHigh : UInt64
  sanicap : UInt32
  /-- The bytes of the fields that are not read. -/
  rest : Nat → UInt8

namespace Controller
variable (x : Controller)

def content : IdField → List UInt8
  | .vid => bytesLE 2 x.vid.toNat
  | .sn => x.serial.bytes
  | .mn => x.model.bytes
  | .fr => x.version
  | .tnvmcap => bytesLE 16 (x.capacity.toNat + 2 ^ 64 * x.capacityHigh.toNat)
  | .sanicap => bytesLE 4 x.sanicap.toNat

def data : List UInt8 := IdField.layout.write NVME_IDENTIFY_DATA_SIZE x.content x.rest

@[simp] theorem length_data : x.data.length = NVME_IDENTIFY_DATA_SIZE := Layout.length_write

theorem length_content (f : IdField) : (x.content f).length = f.size := by
  cases f with
  | vid | tnvmcap | sanicap => exact length_bytesLE _ _
  | sn => exact x.serial.length_bytes
  | mn => exact x.model.length_bytes
  | fr => exact x.version_length

theorem bytesAt_data (f : IdField) : bytesAt x.data f.offset f.size = x.content f := by
  have hfit : f.offset + f.size ≤ NVME_IDENTIFY_DATA_SIZE := Nat.le_trans f.end_le (by decide)
  rw [bytesAt_eq (by rw [length_data]; exact hfit)]
  exact Layout.read_write (L := IdField.layout) hfit (x.length_content f)

theorem parse_data : IdCtrl.parse x.data =
    ⟨x.vid, x.serial.bytes, x.model.bytes, x.version, x.capacity, x.sanicap⟩ := by
  have hvid : u16At x.data 0 = x.vid := by
    rw [← UInt16.toNat_inj, toNat_u16At, show bytesAt x.data 0 2 = _ from x.bytesAt_data .vid, content, valueLE_bytesLE]
    exact Nat.mod_eq_of_lt x.vid.toNat_lt
  have hsanicap : u32At x.data 328 = x.sanicap := by
    rw [← UInt32.toNat_inj, toNat_u32At, show bytesAt x.data 328 4 = _ from x.bytesAt_data .sanicap, content,
      valueLE_bytesLE]
    exact Nat.mod_eq_of_lt x.sanicap.toNat_lt
  have htnvmcap : u64At x.data 280 = x.capacity := by
    -- the first eight of the sixteen bytes
    have hlow : bytesAt x.data 280 8 = (bytesAt x.data 280 16).take 8 := by
      rw [bytesAt_add x.data 280 8 8, List.take_left' (length_bytesAt _ _ _)]
    rw [← UInt64.toNat_inj, toNat_u64At, hlow, show bytesAt x.data 280 16 = _ from x.bytesAt_data .tnvmcap, content,
      show (bytesLE 16 _).take 8 = _ from take_bytesLE 8 8 _, valueLE_bytesLE]
    have hlt := x.capacity.toNat_lt
    omega
  have hsn : bytesAt x.data 4 20 = x.serial.bytes := x.bytesAt_data .sn
  have hmn : bytesAt x.data 24 40 = x.model.bytes := x.bytesAt_data .mn
  have hfr : bytesAt x.data 64 8 = x.version := x.bytesAt_data .fr
  unfold IdCtrl.parse
  rw [hvid, hsn, hmn, hfr, htnvmcap, hsanicap]

end Controller

/-! ## libnvme -/

/-- An identify command that succeeds reads the data of the controller, or as much of its front as is asked for. -/
def Libnvme.Reads (lib : Libnvme) (x : Controller) : Prop :=
  ∀ k ctrl nsid cntid,
    ((lib k (.identify ctrl .ctrl nsid cntid)).rc = 0 → (lib k (.identify ctrl .ctrl nsid cntid)).out.data = x.data) ∧
    ∀ n, (lib k (.identifyPartial ctrl .ctrl nsid cntid 0 n)).rc = 0 →
      (lib k (.identifyPartial ctrl .ctrl nsid cntid 0 n)).out.data = x.data.take n

/-- An identify that has succeeded says what the controller says. -/
def Made.Reads (m : Made) (x : Controller) : Prop :=
  m.call.isIdentify = true → m.ans.rc = 0 → IdCtrl.parse (m.write .null).bytes = IdCtrl.parse x.data

section
variable {cfg : Config} {lib : Libnvme} {x : Controller} {errno : Int} {ep : Endpoint} {c : Command}

theorem Command.Makes.isIdentify {call : NvmeCall} (h : c.Makes call) (hcall : call.isIdentify = true) :
    ∃ ctrl, c = .identify ctrl := by
  cases c with
  | identify ctrl => exact ⟨ctrl, rfl⟩
  | scan | portInformation | health | smart | sanitizeLog | sanitize =>
      cases call <;> first | exact h.elim | cases hcall

theorem bytes_write {m : Made} {n : Nat} (hbuffer : m.call.buffer? = some (n, n)) (hdata : m.ans.out.data.length = n) :
    (m.write .null).bytes = m.ans.out.data := by
  unfold Made.write
  rw [hbuffer]
  change overlay (m.ans.out.data.take n) (resize [] n) = m.ans.out.data
  rw [List.take_of_length_le (Nat.le_of_eq hdata), resize_nil]
  exact overlay_eq (hdata.trans (length_zeros n).symm)

/-- The identify of a request: the whole data, or a front that has the fields. -/
theorem reads_of_executed (hlib : lib.Reads x) (hlen : cfg.readLength = 0 ∨ 332 ≤ cfg.readLength) {m : Made}
    (hm : m ∈ ((c.request cfg).executed lib errno ep).made) : m.Reads x := by
  intro hcall hrc
  obtain ⟨ctrl, rfl⟩ := (made_request hm).isIdentify hcall
  obtain ⟨hfull, hpart⟩ := hlib 0 ctrl Command.NVME_NSID_NONE 0
  have hlength : cfg.identifyRspLength.toUInt16.toNat = cfg.readLength := UInt32.toNat_toUInt16 _
  change m ∈ ((NVMeMi.adminIdentify ctrl .ctrl Command.NVME_NSID_NONE 0 cfg.identifyRspLength.toUInt16).exec lib
    (.start errno ep)).2.made at hm
  unfold NVMeMi.adminIdentify at hm
  split at hm
  · next hpartial =>
      unfold NVMeMi.adminIdentifyPartial NVMeMi.identifyPartialSize at hm
      dsimp only at hm
      rw [NVMeMi.made_reportResult lib (fun _ t => ⟨_, rfl⟩) errno ep] at hm
      obtain rfl := List.mem_singleton.mp hm
      have hdata := hpart _ hrc
      have hpos : 0 < cfg.identifyRspLength.toUInt16.toNat := UInt16.lt_iff_toNat_lt.mp hpartial.1
      rw [bytes_write rfl (by rw [hdata, List.length_take, Controller.length_data]; omega), hdata]
      exact IdCtrl.parse_take x.data (by omega)
  · unfold NVMeMi.adminIdentifyFull at hm
    rw [NVMeMi.made_reportResult lib (fun _ t => ⟨_, rfl⟩) errno ep] at hm
    obtain rfl := List.mem_singleton.mp hm
    have hdata := hfull hrc
    rw [bytes_write rfl (by rw [hdata, Controller.length_data]), hdata]

end
end NvmeManager
