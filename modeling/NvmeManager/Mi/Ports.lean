import NvmeManager.Lib.Search
import NvmeManager.Mi.Reporting

/-!
# The PCIe port of a drive

`miPCIePortInformation` reads the subsystem information, and then the ports from 0 to its `nump` up to a PCIe port.

* `portRead`, `IsPcie`, `probePort` : the answer to the read of a port, a PCIe port, and a port as a place of a search;
* `posted_turn` : one turn of the loop; `posted_readPorts` : the loop posts what the search finds;
* `Selects` : the reply is the first PCIe port or an error;
* `selects_iff` : it is, unless every port can be read and none is a PCIe port.
-/

namespace NvmeManager
namespace NVMeMi

/-- The answer to the read of a port; the subsystem information is read before. -/
def portRead (lib : Libnvme) (i : Nat) : Answer := lib (i + 1) (.readMiDataPort i)

def IsPcie (a : Answer) : Prop := a.rc = 0 ∧ a.out.port.portt = 0x1

instance (a : Answer) : Decidable (IsPcie a) := inferInstanceAs (Decidable (_ ∧ _))

def probePort (lib : Libnvme) (i : Nat) : Probe :=
  if (portRead lib i).rc ≠ 0 then .failure else if (portRead lib i).out.port.portt = 0x1 then .hit else .miss

theorem probePort_failure {lib : Libnvme} {i : Nat} : probePort lib i = .failure ↔ (portRead lib i).rc ≠ 0 := by
  unfold probePort
  split_ifs <;> simp_all

theorem probePort_hit {lib : Libnvme} {i : Nat} : probePort lib i = .hit ↔ IsPcie (portRead lib i) := by
  unfold probePort IsPcie
  split_ifs <;> simp_all

theorem probePort_miss {lib : Libnvme} {i : Nat} :
    probePort lib i = .miss ↔ (portRead lib i).rc = 0 ∧ ¬ IsPcie (portRead lib i) := by
  unfold probePort IsPcie
  split_ifs <;> simp_all

/-- The last port, `nump` is zero-based. -/
def lastPort (lib : Libnvme) : Nat := (lib 0 .readMiDataSubsys).out.ssInfo.nump.toNat

/-- What the loop posts for the result of a search: without a PCIe port it posts the last port. -/
def portReply (lib : Libnvme) (last : Nat) : SearchResult → Reply
  | .failed _ => ⟨.bad_message, .null⟩
  | .found k => ⟨.noError, .port (portRead lib k).out.port⟩
  | .exhausted => ⟨.noError, .port (portRead lib last).out.port⟩

/-- One turn of the loop: a port ends it, or the next one is looked at. -/
theorem posted_turn (lib : Libnvme) (left i : Nat) (t : Thread) (hmade : t.made.length = i + 1) :
    ((readPorts left i).exec lib t).2.posted =
      match probePort lib i, left with
      | .failure, _ => t.posted ++ [portReply lib i (.failed i)]
      | .hit, _ => t.posted ++ [portReply lib i (.found i)]
      | .miss, 0 => t.posted ++ [portReply lib i .exhausted]
      | .miss, left + 1 => ((readPorts left (i + 1)).exec lib (t.call (.readMiDataPort i) (portRead lib i))).2.posted := by
  have hread : lib t.made.length (.readMiDataPort i) = portRead lib i := by
    rw [hmade]
    rfl
  rw [exec_readPorts lib left i t _ hread]
  unfold probePort
  by_cases hrc : (portRead lib i).rc ≠ 0
  · rw [if_pos hrc, if_pos hrc]
    rfl
  rw [if_neg hrc, if_neg hrc]
  by_cases hport : (portRead lib i).out.port.portt = 0x1
  · rw [if_pos hport, if_pos hport]
    rfl
  rw [if_neg hport, if_neg hport]
  cases left with
  | zero => rfl
  | succ left => rfl

/-- The loop from port `i` on, after the reads of the subsystem and of the ports before it. -/
theorem posted_readPorts (lib : Libnvme) (left i : Nat) (t : Thread) (hmade : t.made.length = i + 1) :
    ((readPorts left i).exec lib t).2.posted =
      t.posted ++ [portReply lib (i + left) (linearSearch (probePort lib) left i)] := by
  induction left generalizing i t with
  | zero =>
      rw [posted_turn lib 0 i t hmade]
      unfold linearSearch
      cases probePort lib i with
      | failure | hit | miss => rfl
  | succ left ih =>
      rw [posted_turn lib (left + 1) i t hmade]
      unfold linearSearch
      cases probePort lib i with
      | failure | hit => rfl
      | miss =>
          have hmade' : (t.call (.readMiDataPort i) (portRead lib i)).made.length = i + 1 + 1 := by
            rw [Thread.made_call, List.length_append, hmade]
            rfl
          dsimp only
          rw [ih (i + 1) _ hmade', Nat.add_assoc, Nat.add_comm 1]
          rfl

/-- The reply of `miPCIePortInformation` is the first PCIe port, all the ports up to it having been read; or an error, if
a read fails before there is such a port or none of the ports is one. -/
structure Selects (lib : Libnvme) (r : Reply) : Prop where
  success : r.ec.isError = false → (lib 0 .readMiDataSubsys).rc = 0 ∧ ∃ k ≤ lastPort lib,
    IsPcie (portRead lib k) ∧ r.payload = .port (portRead lib k).out.port ∧
      ∀ j < k, (portRead lib j).rc = 0 ∧ ¬ IsPcie (portRead lib j)
  failure : (lib 0 .readMiDataSubsys).rc ≠ 0 ∨
    (∃ k ≤ lastPort lib, (portRead lib k).rc ≠ 0 ∧ ∀ j < k, ¬ IsPcie (portRead lib j)) ∨
    (∀ k ≤ lastPort lib, ¬ IsPcie (portRead lib k)) → r.ec.isError = true

theorem posted_of_rc {lib : Libnvme} (hrc : (lib 0 .readMiDataSubsys).rc = 0) (errno : Int) (ep : Endpoint) :
    (miPCIePortInformation.exec lib (.start errno ep)).2.posted =
      [portReply lib (lastPort lib) (linearSearch (probePort lib) (lastPort lib) 0)] := by
  rw [exec_miPCIePortInformation lib (.start errno ep) (lib 0 .readMiDataSubsys) rfl]
  dsimp only
  rw [hrc, if_neg (Int.lt_irrefl 0), if_neg (Int.lt_irrefl 0), posted_readPorts lib _ 0 _ rfl, Nat.zero_add]
  rfl

theorem posted_of_rc_ne {lib : Libnvme} (hrc : (lib 0 .readMiDataSubsys).rc ≠ 0) (errno : Int) (ep : Endpoint) :
    ∃ r, (miPCIePortInformation.exec lib (.start errno ep)).2.posted = [r] ∧ r.ec.isError = true := by
  rw [exec_miPCIePortInformation lib (.start errno ep) (lib 0 .readMiDataSubsys) rfl]
  dsimp only
  by_cases hneg : (lib 0 .readMiDataSubsys).rc < 0
  · rw [if_pos hneg]
    exact ⟨_, rfl, ErrorCode.isError_ofErrno (lib.errnoAfter_ne_zero hneg trivial errno)⟩
  · rw [if_neg hneg, if_pos (by omega)]
    exact ⟨_, rfl, rfl⟩

theorem selects_portReply {lib : Libnvme} (hrc : (lib 0 .readMiDataSubsys).rc = 0) {result : SearchResult}
    (h : result.Valid (probePort lib) 0 (lastPort lib)) :
    Selects lib (portReply lib (lastPort lib) result) ↔
      ∃ k ≤ lastPort lib, (portRead lib k).rc ≠ 0 ∨ IsPcie (portRead lib k) := by
  cases result with
  | failed k =>
      obtain ⟨_, hk, hfails, _⟩ := h
      have hrcs := probePort_failure.mp hfails
      exact ⟨fun _ => ⟨k, hk, .inl hrcs⟩, fun _ => ⟨nofun, fun _ => rfl⟩⟩
  | found k =>
      obtain ⟨_, hk, hhit, hbefore⟩ := h
      have hpcie := probePort_hit.mp hhit
      refine ⟨fun _ => ⟨k, hk, .inr hpcie⟩, fun _ => ⟨fun _ => ⟨hrc, k, hk, hpcie, rfl, fun j hj => ?_⟩, ?_⟩⟩
      · exact probePort_miss.mp (hbefore j (Nat.zero_le j) hj)
      · rintro (hsubsys | ⟨i, _, hi, hnone⟩ | hnone)
        · exact absurd hrc hsubsys
        · rcases Nat.lt_trichotomy i k with hlt | rfl | hgt
          · exact absurd (probePort_miss.mp (hbefore i (Nat.zero_le i) hlt)).1 hi
          · exact absurd hpcie.1 hi
          · exact absurd hpcie (hnone k hgt)
        · exact absurd hpcie (hnone k hk)
  | exhausted =>
      have hmiss : ∀ k ≤ lastPort lib, (portRead lib k).rc = 0 ∧ ¬ IsPcie (portRead lib k) :=
        fun k hk => probePort_miss.mp (h k (Nat.zero_le k) hk)
      refine ⟨fun hs => ?_, ?_⟩
      · have herr := hs.failure (.inr (.inr fun k hk => (hmiss k hk).2))
        cases herr
      · rintro ⟨k, hk, hfails | hpcie⟩
        · exact absurd (hmiss k hk).1 hfails
        · exact absurd hpcie (hmiss k hk).2

/-- **Ports.** The request posts one reply, and it is the first PCIe port or an error, if and only if some read fails or
some port is a PCIe port. -/
theorem selects_iff (lib : Libnvme) (errno : Int) (ep : Endpoint) :
    ∃ r, (MiRequest.miPCIePortInformation.executed lib errno ep).posted = [r] ∧
      (Selects lib r ↔ (lib 0 .readMiDataSubsys).rc ≠ 0 ∨
        ∃ k ≤ lastPort lib, (portRead lib k).rc ≠ 0 ∨ IsPcie (portRead lib k)) := by
  by_cases hrc : (lib 0 .readMiDataSubsys).rc = 0
  · refine ⟨_, posted_of_rc hrc errno ep, ?_⟩
    have hvalid := linearSearch_valid (probePort lib) (lastPort lib) 0
    rw [Nat.zero_add] at hvalid
    rw [selects_portReply hrc hvalid, or_iff_right (not_not_intro hrc)]
  · obtain ⟨r, hr, herr⟩ := posted_of_rc_ne hrc errno ep
    refine ⟨r, hr, fun _ => .inl hrc, fun _ => ⟨fun hok => ?_, fun _ => herr⟩⟩
    rw [hok] at herr
    cases herr

def smbusOnly : Libnvme := .ok { ssInfo := ⟨0⟩, port := ⟨2, 0, 0, 0, 0⟩ }

/-- The port is reported as if it were a PCIe port. -/
theorem smbus_port_selected : ∃ r,
    (MiRequest.miPCIePortInformation.executed smbusOnly 0 ⟨0, [], 5000⟩).posted = [r] ∧ r.ec.isError = false ∧
      ¬ Selects smbusOnly r := by
  refine ⟨⟨.noError, .port ⟨2, 0, 0, 0, 0⟩⟩, rfl, rfl, fun hs => ?_⟩
  obtain ⟨_, k, _, hpcie, _⟩ := hs.success rfl
  have hportt : (2 : UInt8) = 0x1 := hpcie.2
  exact absurd hportt (by decide)

end NVMeMi
end NvmeManager
