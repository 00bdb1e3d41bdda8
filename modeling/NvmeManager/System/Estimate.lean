import NvmeManager.System.Observed
import NvmeManager.System.Consent
import Mathlib.Data.Nat.Bitwise

/-!
# The estimate of a sanitize

While a sanitize is in progress, each log gives an estimate of its time for each method, with deallocation and without.
The callback of the log chooses one, and divides by it.

* `SanitizeLogPage.field` : the estimate of a method; `SanitizeLogPage.Usable` : one that can be divided by;
* `percent_stored_iff` : the callback stores a percentage below 100 for these logs only;
* `EraseFacts` : what an observer knows of the drive that decides on the estimate: the capabilities of its latest identify
  and the method of its latest sanitize;
* `chosen_iff` : the estimate that is chosen is the one of a sanitize without deallocation only by coincidence.
-/

namespace NvmeManager

namespace SanitizeLogPage

/-- The estimate that a log has for a method, without deallocation or with it. -/
def field (log : SanitizeLogPage) (type : EraseMethod) (noDeAlloc : Bool) : UInt32 :=
  match type with
  | .overwrite => if noDeAlloc then log.etond else log.eto
  | .blockErase => if noDeAlloc then log.etbend else log.etbe
  | .cryptoErase => if noDeAlloc then log.etcend else log.etce

/-- The estimate is not zero; nor is the configured time where the drive reports none. -/
def Usable (cfg : Config) (log : SanitizeLogPage) (type : EraseMethod) (noDeAlloc : Bool) : Prop :=
  log.field type noDeAlloc ≠ 0 ∧ (log.field type noDeAlloc = 0xFFFFFFFF → cfg.driveSanitizeTime ≠ 0)

instance (cfg : Config) (log : SanitizeLogPage) (type : EraseMethod) (noDeAlloc : Bool) :
    Decidable (log.Usable cfg type noDeAlloc) :=
  inferInstanceAs (Decidable (_ ∧ (_ → _)))

end SanitizeLogPage

namespace NVMeDevice
variable {cfg : Config} {d d' : NVMeDevice} {v : DriveView} {r : Reply}

theorem estimate_eq (log : SanitizeLogPage) : v.estimate log = log.field v.eraseType v.getNodmmas := by
  unfold DriveView.estimate SanitizeLogPage.field
  cases v.eraseType with
  | overwrite => rfl
  | blockErase => rfl
  | cryptoErase => rfl

/-! ## The division -/

theorem zeroEstimate_iff {data : List UInt8}
    (hres : (SanitizeLogPage.parse data).res = NVME_SANITIZE_SSTAT_STATUS_IN_PROGESS) :
    ZeroEstimate cfg v data ↔ ¬ (SanitizeLogPage.parse data).Usable cfg v.eraseType v.getNodmmas := by
  unfold ZeroEstimate SanitizeLogPage.Usable
  rw [and_iff_right hres, estimate_eq]
  generalize (SanitizeLogPage.parse data).field v.eraseType v.getNodmmas = time
  by_cases hnone : time = 0xFFFFFFFF
  · subst hnone
    simp
  · simp [hnone]

theorem sanitizeLogRead_inProgress (herr : r.ec.isError = false)
    (hres : (SanitizeLogPage.parse r.payload.bytes).res = NVME_SANITIZE_SSTAT_STATUS_IN_PROGESS) :
    d.sanitizeLogRead cfg r =
      (d.updatePercent cfg (d.estimate (SanitizeLogPage.parse r.payload.bytes))).map
        fun v => { d with toDriveView := v } := by
  unfold sanitizeLogRead
  rw [herr, if_neg Bool.false_ne_true]
  dsimp only
  rw [if_neg (not_not_intro hres), hres, sanitizeEnded_inProgress]

/-- **Percentage.** A log that says that the sanitize is in progress is divided by and leads to a percentage from 0 to 99,
if and only if the estimate that it has for the method is usable. -/
theorem percent_stored_iff (herr : r.ec.isError = false)
    (hres : (SanitizeLogPage.parse r.payload.bytes).res = NVME_SANITIZE_SSTAT_STATUS_IN_PROGESS) :
    (∃ d', d.sanitizeLogRead cfg r = some d' ∧ d'.props.progress.toNat ≤ 99) ↔
      (SanitizeLogPage.parse r.payload.bytes).Usable cfg d.eraseType d.getNodmmas := by
  rw [← not_iff_comm.mp (zeroEstimate_iff hres).symm]
  refine ⟨?_, fun husable => ?_⟩
  · rintro ⟨d', hd', _⟩ hzero
    rw [sanitizeLogRead_eq_none_iff.mpr ⟨herr, hzero⟩] at hd'
    cases hd'
  · cases hread : d.sanitizeLogRead cfg r with
    | none => exact absurd (sanitizeLogRead_eq_none_iff.mp hread).2 husable
    | some d' =>
        rw [sanitizeLogRead_inProgress herr hres] at hread
        obtain ⟨v, hv, rfl⟩ := Option.map_eq_some_iff.mp hread
        obtain ⟨percent, time, hlt, rfl⟩ := DriveView.updatePercent_eq_some hv
        exact ⟨_, rfl, Nat.le_of_lt_succ hlt⟩

/-- A drive that is erasing, and 20 seconds into it. -/
def erasing : NVMeDevice := { first with eraseType := .cryptoErase, inProgress := true, estimatedTime := 20 }

/-- A log that says that a sanitize is in progress, with these estimates behind the first eight bytes. -/
def inProgressLog (estimates : List UInt8) : Reply := ⟨.noError, .span (zeros 2 ++ [2, 0] ++ zeros 4 ++ estimates)⟩

/-- The theorem at an estimate of 100 seconds. -/
theorem percent_stored_iff_quarter :
    ∃ d', erasing.sanitizeLogRead .standard (inProgressLog (zeros 8 ++ [100, 0, 0, 0])) = some d' ∧
      d'.props.progress.toNat ≤ 99 :=
  (percent_stored_iff (by decide) (by decide)).mpr (by decide)

/-- A drive that reports an estimate of 0 seconds. -/
theorem zero_estimate_divided_by :
    ¬ ∃ d', erasing.sanitizeLogRead .standard (inProgressLog (zeros 24)) = some d' ∧ d'.props.progress.toNat ≤ 99 := by
  rintro ⟨d', hd', _⟩
  cases hd'

end NVMeDevice

/-! ## The choice -/

/-- `NODMMAS`, bit 31 of the sanitize capabilities. -/
def nodmmasBit (sanicap : UInt32) : Bool := sanicap &&& 0x80000000 ≠ 0

/-- What decides on the estimate: the capabilities in the latest identify, and the method of the latest sanitize, that
were answered without an error. -/
structure EraseFacts where
  sanicap : Option UInt32
  method : Option EraseMethod
  deriving DecidableEq

namespace EraseFacts

def init : EraseFacts := ⟨none, none⟩

def see (f : EraseFacts) (q : Pending) : EraseFacts where
  sanicap := q.sanicapAfter f.sanicap
  method :=
    match q.command with
    | .sanitize _ type _ => if q.reply.ec.isError then f.method else some type
    | _ => f.method

/-- The facts are remembered, but for the capability bits above the lowest eight. -/
structure Remembered (m : SanitizeMembers) (f : EraseFacts) : Prop where
  nodmmas : ∀ sanicap ∈ f.sanicap, m.nodmmas = sanicap.toUInt8.toUInt32 &&& 0x80000000
  eraseType : ∀ type ∈ f.method, m.eraseType = type

variable {cfg : Config} {v v' : DriveView} {f : EraseFacts} {q : Pending}

theorem see_unrelated (hc : q.command.Unrelated) : f.see q = f := by
  unfold see Pending.sanicapAfter
  cases hq : q.command with
  | identify | sanitize =>
      rw [hq] at hc
      cases hc
  | scan | portInformation | health | smart | sanitizeLog => rfl

theorem remembered_replied (hr : Remembered v.sanitizeMembers f) (h : NVMeDevice.replied cfg v q.command q.reply = some v') :
    Remembered v'.sanitizeMembers (f.see q) := by
  by_cases hc : q.command.Unrelated
  · rw [see_unrelated hc, NVMeDevice.sanitizeMembers_replied hc h]
    exact hr
  obtain ⟨c, r, n⟩ := q
  cases c with
  | scan | portInformation | health | smart => exact absurd trivial hc
  | identify ctrl =>
      obtain rfl := Option.some.inj h
      unfold see Pending.sanicapAfter
      dsimp only
      split
      · exact hr
      · refine ⟨?_, hr.eraseType⟩
        rintro _ ⟨⟩
        rfl
  | sanitizeLog ctrl =>
      rcases NVMeDevice.replied_sanitizeLog_cases h with ⟨_, rfl⟩ | ⟨_, ⟨_, rfl⟩ | ⟨_, hpercent⟩⟩
      · exact hr
      · unfold DriveView.sanitizeEnded
        split
        · exact ⟨hr.nodmmas, hr.eraseType⟩
        · split
          · exact ⟨hr.nodmmas, hr.eraseType⟩
          · exact hr
      · obtain ⟨_, _, _, rfl⟩ := DriveView.updatePercent_eq_some hpercent
        exact ⟨hr.nodmmas, hr.eraseType⟩
  | sanitize ctrl type passes =>
      obtain rfl := Option.some.inj h
      unfold see Pending.sanicapAfter
      dsimp only
      split
      · exact ⟨hr.nodmmas, hr.eraseType⟩
      · refine ⟨hr.nodmmas, ?_⟩
        rintro _ ⟨⟩
        rfl

theorem remembered_of_step {o o' : Observed EraseFacts} {e : Event} (hr : Remembered o.proc.drive.sanitizeMembers o.seen)
    (h : o.Step see cfg e o') : Remembered o'.proc.drive.sanitizeMembers o'.seen := by
  cases Observed.effect_of_step h with
  | quiet _ hmembers hseen =>
      rw [hmembers, hseen]
      exact hr
  | callback hio hreplied hseen =>
      rw [hseen]
      exact remembered_replied hr hreplied
  | abort hio hc herr hres hview hseen =>
      rw [hseen, hview]
      unfold see Pending.sanicapAfter
      rw [hc]
      exact hr

/-- Eight bits have no bit 31. -/
theorem nodmmas_eq_zero (sanicap : UInt32) : sanicap.toUInt8.toUInt32 &&& 0x80000000 = 0 := by
  have hlt : (sanicap.toUInt8.toUInt32).toNat < 2 ^ 31 := by
    rw [UInt8.toNat_toUInt32]
    exact Nat.lt_of_lt_of_le sanicap.toUInt8.toNat_lt (by decide)
  rw [← UInt32.toNat_inj, UInt32.toNat_and, show (0x80000000 : UInt32).toNat = 2 ^ 31 from rfl, Nat.and_two_pow,
    Nat.testBit_lt_two_pow hlt]
  rfl

theorem getNodmmas_eq_false (hr : Remembered v.sanitizeMembers f) {sanicap : UInt32} (hcap : f.sanicap = some sanicap) :
    v.getNodmmas = false := by
  have hnodmmas : v.nodmmas = sanicap.toUInt8.toUInt32 &&& 0x80000000 := hr.nodmmas sanicap hcap
  unfold DriveView.getNodmmas
  rw [hnodmmas, nodmmas_eq_zero]
  rfl

section
variable {props : NvmeInterfaces} {u : Uninitialised} {eid : UInt8} {bus : UInt32} {path : String}
  {timeout : Option Nat} {es : List Event} {o : Observed EraseFacts}

theorem remembered_of_run (hrun : Run (Observed.Step see cfg) (.start cfg init props u eid bus path timeout) es o) :
    Remembered o.proc.drive.sanitizeMembers o.seen := by
  refine hrun.invariant (fun o => Remembered o.proc.drive.sanitizeMembers o.seen)
    ⟨fun _ h => absurd h (Option.not_mem_none _), fun _ h => absurd h (Option.not_mem_none _)⟩ ?_
  intro s e s' hr h
  exact remembered_of_step hr h

/-- **Estimate.** After any events that include an identify with these capabilities and a sanitize with this method, the
callback of a log that says that the sanitize is in progress divides by the estimate that the log has for the method
and for bit 31 of the capabilities, if and only if the bit is clear or the log has the same estimate for both. -/
theorem chosen_iff (hrun : Run (Observed.Step see cfg) (.start cfg init props u eid bus path timeout) es o)
    {sanicap : UInt32} {type : EraseMethod} (hcap : o.seen.sanicap = some sanicap) (htype : o.seen.method = some type)
    {r : Reply} {log : SanitizeLogPage} (herr : r.ec.isError = false) (hlog : SanitizeLogPage.parse r.payload.bytes = log)
    (hres : log.res = NVME_SANITIZE_SSTAT_STATUS_IN_PROGESS) :
    o.proc.drive.sanitizeLogRead cfg r =
        (o.proc.drive.updatePercent cfg (o.proc.drive.estimate log)).map
          (fun v => { o.proc.drive with toDriveView := v }) ∧
      (o.proc.drive.estimate log = log.field type (nodmmasBit sanicap) ↔
        nodmmasBit sanicap = false ∨ log.field type true = log.field type false) := by
  subst hlog
  have hr := remembered_of_run hrun
  refine ⟨NVMeDevice.sanitizeLogRead_inProgress herr hres, ?_⟩
  have heraseType : o.proc.drive.eraseType = type := hr.eraseType type htype
  rw [NVMeDevice.estimate_eq, getNodmmas_eq_false hr hcap, heraseType]
  generalize (SanitizeLogPage.parse r.payload.bytes).field type = field
  cases nodmmasBit sanicap with
  | false => simp
  | true => simp [eq_comm]

end

/-- A drive with one controller and these capabilities. -/
def eraser (sanicap : List UInt8) : Libnvme := .ok { handles := [7], data := zeros 328 ++ sanicap }

def eraserRun (sanicap : List UInt8) : List Event :=
  [.initializeDrive, .execute (eraser sanicap) 0, .deliver, .execute (eraser sanicap) 0, .deliver,
    .execute (eraser sanicap) 0, .deliver, .erase 0 .cryptoErase, .execute (eraser sanicap) 0, .deliver]

/-- A log that has 100 seconds for the crypto erase, and 200 without deallocation. -/
def twoEstimates : Reply := NVMeDevice.inProgressLog (zeros 8 ++ [100, 0, 0, 0] ++ zeros 8 ++ [200, 0, 0, 0])

/-- The theorem at capabilities with bit 31 clear. -/
theorem chosen_iff_clear : ∃ o,
    Run (Observed.Step see .standard) (.start .standard init default default 10 3 "/drive" (some 5000))
      (eraserRun [1]) o ∧ o.proc.drive.estimate (SanitizeLogPage.parse twoEstimates.payload.bytes) = 100 := by
  have hfacts : ((eraserRun [1]).foldlM (Observed.next see .standard)
      (.start .standard init default default 10 3 "/drive" (some 5000))).any (fun o =>
        o.seen.sanicap = some 1 && o.seen.method = some .cryptoErase) = true := by
    decide +kernel
  obtain ⟨o, ho, hfacts⟩ := (Option.any_eq_true _ _).mp hfacts
  rw [Bool.and_eq_true, decide_eq_true_eq, decide_eq_true_eq] at hfacts
  have hrun : Run (Observed.Step see .standard) (.start .standard init default default 10 3 "/drive" (some 5000))
      (eraserRun [1]) o := Run.of_foldlM ho
  refine ⟨o, hrun, ?_⟩
  exact (chosen_iff (r := twoEstimates) hrun hfacts.1 hfacts.2 (by decide) rfl (by decide)).2.mpr (.inl (by decide))

/-- Bit 31 is set, and the callback chooses the estimate with deallocation. -/
theorem deallocating_estimate : ∃ o,
    Run (Observed.Step see .standard) (.start .standard init default default 10 3 "/drive" (some 5000))
      (eraserRun [1, 0, 0, 0x80]) o ∧ o.seen = ⟨some 0x80000001, some .cryptoErase⟩ ∧
      nodmmasBit 0x80000001 = true ∧
      o.proc.drive.estimate (SanitizeLogPage.parse twoEstimates.payload.bytes) = 100 ∧
      (SanitizeLogPage.parse twoEstimates.payload.bytes).field .cryptoErase true = 200 := by
  have hfacts : ((eraserRun [1, 0, 0, 0x80]).foldlM (Observed.next see .standard)
      (.start .standard init default default 10 3 "/drive" (some 5000))).any (fun o =>
        o.seen = ⟨some 0x80000001, some .cryptoErase⟩ &&
          o.proc.drive.estimate (SanitizeLogPage.parse twoEstimates.payload.bytes) = 100) = true := by
    decide +kernel
  obtain ⟨o, ho, hfacts⟩ := (Option.any_eq_true _ _).mp hfacts
  rw [Bool.and_eq_true, decide_eq_true_eq, decide_eq_true_eq] at hfacts
  exact ⟨o, Run.of_foldlM ho, hfacts.1, by decide, hfacts.2, by decide⟩

end EraseFacts

end NvmeManager
