import NvmeManager.Mi.Reporting

/-!
# Telemetry logs

A telemetry log that is not created is read twice: its header, which says how long the log is, and then the whole log,
with a header of its own.

* `retained?` : the requests for such a log;
* `SelfConsistent` : the buffer has the length that its own header says, and the last read has written all of it;
* `exec_getTelemetryLog` : what the two reads leave in the buffer;
* `selfConsistent_iff` : it is self-consistent exactly if both headers say the same length, and the last read returned as
  many bytes; `telemetry_consistent_iff` : so is the span that the callback receives.
-/

namespace NvmeManager

namespace NVMeMi
open Closure

/-- The log of the host or of the controller, if the request reads one and does not create it. -/
def retained? (lid : LogLid) (lsp : UInt8) : Option Bool :=
  match lid with
  | .telemetryHost => if lsp = lspRetain then some true else none
  | .telemetryCtrl => some false
  | _ => none

/-- The length is that of the log that the header describes, and every byte has been written by the last read. -/
structure SelfConsistent (last : Answer) (data : List UInt8) : Prop where
  size : data.length = telemetrySize data
  written : data <+: last.out.data

section
variable {lib : Libnvme} {ctrl : Ctrl} {host : Bool}

/-! ## The reads -/

/-- The answer to the read of the header, on a thread that has made `n` commands. -/
def headerRead (lib : Libnvme) (ctrl : Ctrl) (host : Bool) (n : Nat) : Answer :=
  lib n (telemetryCall ctrl host 0 sizeofTelemetryLog)

def wholeRead (lib : Libnvme) (ctrl : Ctrl) (host : Bool) (n : Nat) : Answer :=
  lib (n + 1) (telemetryCall ctrl host 0 (telemetrySize (headerRead lib ctrl host n).out.data))

theorem telemetrySize_congr {data data' : List UInt8} (h : ∀ i < 14, byteAt data i = byteAt data' i) :
    telemetrySize data = telemetrySize data' := by
  have hdalb3 : u16At data 12 = u16At data' 12 := u16At_congr fun i hi => h (12 + i) (by omega)
  unfold telemetrySize
  rw [hdalb3]

theorem le_telemetrySize (log : List UInt8) : sizeofTelemetryLog ≤ telemetrySize log :=
  Nat.le_mul_of_pos_left _ (Nat.succ_pos _)

theorem telemetrySize_inj {log log' : List UInt8} :
    telemetrySize log = telemetrySize log' ↔ u16At log 12 = u16At log' 12 := by
  unfold telemetrySize
  rw [Nat.mul_left_inj (by decide), Nat.add_left_inj, UInt16.toNat_inj]

theorem fill_of_rc_eq_zero {a : Answer} (h : a.rc = 0) (len : Nat) (buf : List UInt8) :
    a.fill len buf = overlay (a.out.data.take len) buf := if_pos h

theorem telemetrySize_header {a : Answer} (h : a.rc = 0) :
    telemetrySize (a.fill sizeofTelemetryLog (zeros sizeofTelemetryLog)) = telemetrySize a.out.data := by
  rw [fill_of_rc_eq_zero h]
  apply telemetrySize_congr
  intro i hi
  have hlt : i < sizeofTelemetryLog := Nat.lt_of_lt_of_le hi (by decide)
  rw [byteAt_overlay_zeros hlt, byteAt_take hlt]

/-- The header is read, and then the log that it describes, over what the first read has left. -/
theorem exec_getTelemetryLog (t : Thread) (hheader : (headerRead lib ctrl host t.made.length).rc = 0) :
    ((getTelemetryLog ctrl host false).exec lib t).1 =
      ((wholeRead lib ctrl host t.made.length).rc,
        (wholeRead lib ctrl host t.made.length).fill
          (telemetrySize (headerRead lib ctrl host t.made.length).out.data)
          (resize ((headerRead lib ctrl host t.made.length).fill sizeofTelemetryLog (zeros sizeofTelemetryLog))
            (telemetrySize (headerRead lib ctrl host t.made.length).out.data))) := by
  have hsize := telemetrySize_header hheader
  unfold headerRead at hheader hsize
  unfold getTelemetryLog wholeRead headerRead
  rw [Bool.and_false, if_neg Bool.false_ne_true, exec_bind, exec_nvme]
  dsimp only
  rw [if_neg (not_not_intro hheader), hsize, exec_bind, exec_nvme, Thread.made_call, List.length_append]
  rfl

theorem reads_of_success {t : Thread} {data : List UInt8}
    (h : ((getTelemetryLog ctrl host false).exec lib t).1 = (0, data)) :
    (headerRead lib ctrl host t.made.length).rc = 0 ∧ (wholeRead lib ctrl host t.made.length).rc = 0 := by
  have hheader : (headerRead lib ctrl host t.made.length).rc = 0 := by
    by_contra hne
    unfold headerRead at hne
    unfold getTelemetryLog at h
    rw [Bool.and_false, if_neg Bool.false_ne_true, exec_bind, exec_nvme] at h
    dsimp only at h
    rw [if_pos hne] at h
    exact hne (Prod.mk.inj h).1
  rw [exec_getTelemetryLog t hheader] at h
  exact ⟨hheader, (Prod.mk.inj h).1⟩

/-! ## The buffer -/

/-- A buffer that has been written by a read that was asked for all of it. -/
theorem selfConsistent_overlay_iff {last : Answer} {log : List UInt8} {size : UInt16} {buf : List UInt8}
    (hlog : u16At log 12 = size) (hbuf : buf.length = telemetrySize log) :
    SelfConsistent last (overlay (last.out.data.take (telemetrySize log)) buf) ↔
      u16At last.out.data 12 = size ∧ telemetrySize log ≤ last.out.data.length := by
  subst hlog
  have hlength : (overlay (last.out.data.take (telemetrySize log)) buf).length = telemetrySize log := by
    rw [length_overlay, hbuf]
  -- the header of a buffer that has been written is the one that was read last
  have hfull : telemetrySize log ≤ last.out.data.length →
      overlay (last.out.data.take (telemetrySize log)) buf = last.out.data.take (telemetrySize log) ∧
        telemetrySize (last.out.data.take (telemetrySize log)) = telemetrySize last.out.data := by
    intro hle
    refine ⟨overlay_eq ?_, telemetrySize_congr fun i hi => byteAt_take ?_⟩
    · rw [List.length_take, hbuf, Nat.min_eq_left hle]
    · exact Nat.lt_of_lt_of_le hi (Nat.le_trans (by decide) (le_telemetrySize log))
  constructor
  · rintro ⟨hsize, hwritten⟩
    have hle : telemetrySize log ≤ last.out.data.length := hlength ▸ hwritten.length_le
    obtain ⟨heq, hheader⟩ := hfull hle
    rw [hlength, heq, hheader] at hsize
    exact ⟨(telemetrySize_inj.mp hsize).symm, hle⟩
  · rintro ⟨hsame, hle⟩
    obtain ⟨heq, hheader⟩ := hfull hle
    refine ⟨?_, ?_⟩
    · rw [hlength, heq, hheader]
      exact telemetrySize_inj.mpr hsame.symm
    · rw [heq]
      exact List.take_prefix _ _

/-- The two headers agree on the length, and the last read has returned as much. -/
def Steady (lib : Libnvme) (ctrl : Ctrl) (host : Bool) (n : Nat) : Prop :=
  u16At (wholeRead lib ctrl host n).out.data 12 = u16At (headerRead lib ctrl host n).out.data 12 ∧
    telemetrySize (headerRead lib ctrl host n).out.data ≤ (wholeRead lib ctrl host n).out.data.length

theorem selfConsistent_iff {t : Thread} {data : List UInt8}
    (h : ((getTelemetryLog ctrl host false).exec lib t).1 = (0, data)) :
    SelfConsistent (wholeRead lib ctrl host t.made.length) data ↔ Steady lib ctrl host t.made.length := by
  obtain ⟨hheader, hwhole⟩ := reads_of_success h
  rw [exec_getTelemetryLog t hheader, fill_of_rc_eq_zero hwhole] at h
  obtain rfl := (Prod.mk.inj h).2
  exact selfConsistent_overlay_iff rfl (length_resize _ _)

/-! ## Requests -/

theorem readLog_retained {lid : LogLid} {lsp : UInt8} (h : retained? lid lsp = some host) (nsid : UInt32) :
    readLog ctrl lid nsid lsp = getTelemetryLog ctrl host false := by
  unfold retained? at h
  cases lid with
  | telemetryHost =>
      dsimp only at h
      split at h
      · next hretain =>
          obtain rfl := Option.some.inj h
          subst hretain
          rfl
      · cases h
  | telemetryCtrl =>
      obtain rfl := Option.some.inj h
      rfl
  | error | smart | fwSlot | changedNs | cmdEffects | deviceSelfTest | reservation | sanitize | other => cases h

/-- **Telemetry log.** Wherever a log that is not created is read without an error, the callback gets one span, and the
span is self-consistent if and only if the two reads agree on the length and the last one returned as much. -/
theorem telemetry_consistent_iff {lid : LogLid} {lsp : UInt8} (hpath : retained? lid lsp = some host) (nsid : UInt32)
    (lsi : UInt16) (errno : Int) (ep : Endpoint) {data : List UInt8}
    (h : ((getTelemetryLog ctrl host false).exec lib (.start errno ep)).1 = (0, data)) :
    ((adminGetLogPage ctrl lid nsid lsp lsi).exec lib (.start errno ep)).2.posted = [⟨.noError, .span data⟩] ∧
      (SelfConsistent (wholeRead lib ctrl host 0) data ↔ Steady lib ctrl host 0) := by
  have hmade : (Thread.start errno ep).made.length = 0 := rfl
  have hconsistent := selfConsistent_iff h
  rw [hmade] at hconsistent
  refine ⟨?_, hconsistent⟩
  rw [adminGetLogPage_posted, readLog_retained hpath, h]
  rfl

end

/-- A controller whose log grows from one block to `n + 1` between the reads. -/
def growingLog (n : UInt8) : Libnvme := .writing fun k _ =>
  { data := zeros 12 ++ [if k = 0 then 0 else n] ++ zeros 499 }

theorem growingLog_dalb3 (n : UInt8) (k : Nat) (call : NvmeCall) :
    u16At (growingLog n k call).out.data 12 = (if k = 0 then 0 else n).toUInt16 ||| (0 : UInt8).toUInt16 <<< 8 := rfl

theorem growingLog_length (n : UInt8) (k : Nat) (call : NvmeCall) : (growingLog n k call).out.data.length = 512 := by
  change (zeros 12 ++ [if k = 0 then 0 else n] ++ zeros 499).length = 512
  rw [List.length_append, List.length_append, length_zeros, length_zeros, List.length_singleton]

/-- The theorem at a log that does not grow. -/
theorem telemetry_consistent_iff_still : ∃ data,
    ((adminGetLogPage ⟨1, 7⟩ .telemetryCtrl 0 0 0).exec (growingLog 0) (.start 0 ⟨1, [⟨1, 7⟩], 5000⟩)).2.posted =
      [⟨.noError, .span data⟩] ∧ SelfConsistent (wholeRead (growingLog 0) ⟨1, 7⟩ false 0) data := by
  obtain ⟨hposted, hiff⟩ := @telemetry_consistent_iff (growingLog 0) ⟨1, 7⟩ false .telemetryCtrl 0 rfl 0 0 0
    ⟨1, [⟨1, 7⟩], 5000⟩ _ (exec_getTelemetryLog _ rfl)
  refine ⟨_, hposted, hiff.mpr ⟨?_, ?_⟩⟩
  · rw [wholeRead, headerRead, growingLog_dalb3, growingLog_dalb3, ite_self, ite_self]
  · rw [wholeRead, headerRead, growingLog_length, telemetrySize, growingLog_dalb3]
    decide

/-- The log grows by one block: the buffer holds the header of the longer one. -/
theorem grown_log_cut_off : ∃ data,
    ((getTelemetryLog ⟨1, 7⟩ false false).exec (growingLog 1) (.start 0 ⟨1, [⟨1, 7⟩], 5000⟩)).1 = (0, data) ∧
      ¬ SelfConsistent (wholeRead (growingLog 1) ⟨1, 7⟩ false 0) data := by
  have hread := @exec_getTelemetryLog (growingLog 1) ⟨1, 7⟩ false (.start 0 ⟨1, [⟨1, 7⟩], 5000⟩) rfl
  refine ⟨_, hread, fun hconsistent => ?_⟩
  obtain ⟨hsame, -⟩ := (selfConsistent_iff hread).mp hconsistent
  rw [wholeRead, headerRead, growingLog_dalb3, growingLog_dalb3] at hsame
  exact absurd hsame (by decide)

end NVMeMi
end NvmeManager
