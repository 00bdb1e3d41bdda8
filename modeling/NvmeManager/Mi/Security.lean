import NvmeManager.Mi.Overlap

/-!
# The error code of the security commands

The closures of `adminSecuritySend` and `adminSecurityReceive` make the error code from the `errno` of the worker, which
a command that succeeds leaves as it was.

* `Closure.Plain` : a closure that does not set `errno` by itself; `Closure.Plain.errno` : it leaves a zero exactly if no
  command of it sets one;
* `MiRequest.plain_task` : the closures of the requests that ask for no log page that is not known;
* `Job`, `errnoAfter` : a request that the worker has executed, and the `errno` after a sequence of them;
  `errnoAfter_eq_zero_iff` : it is zero as long as none of them has left one;
* `SecurityRequest` : a security command that the worker executes; `Own` : the error code is that of its own outcome;
* `own_iff` : that is so for the commands that fail, and for the others while no earlier job has left an `errno`.
-/

namespace NvmeManager
open Closure

/-! ## The errno of a closure -/

section
variable {α β : Type}

def Closure.Plain (p : Closure α) : Prop := p.Uses fun o => ∀ e, o ≠ .setErrno e

/-- Only a command that fails sets `errno`, and not to zero. -/
theorem Closure.Plain.errno {p : Closure α} (hp : p.Plain) (lib : Libnvme) (e : Int) (ep : Endpoint) :
    (p.exec lib (.start e ep)).2.errno = 0 ↔
      e = 0 ∧ ∀ m ∈ (p.exec lib (.start e ep)).2.made, ¬ m.ans.SetsErrno := by
  refine Prog.run_invariant (serve lib) (fun t => t.errno = 0 ↔ e = 0 ∧ ∀ m ∈ t.made, ¬ m.ans.SetsErrno) ?_ hp ?_
  · intro o t ho ht
    cases o with
    | nvme c =>
        change (t.call c (lib t.made.length c)).errno = 0 ↔
          e = 0 ∧ ∀ m ∈ (t.call c (lib t.made.length c)).made, ¬ m.ans.SetsErrno
        generalize lib t.made.length c = a
        rw [Thread.errno_call, Thread.made_call]
        have hmade : (∀ m ∈ t.made ++ [⟨c, t.ep.scans, a⟩], ¬ m.ans.SetsErrno) ↔
            (∀ m ∈ t.made, ¬ m.ans.SetsErrno) ∧ ¬ a.SetsErrno := by
          simp only [List.forall_mem_append, List.forall_mem_singleton]
        rw [hmade]
        by_cases hset : a.SetsErrno
        · refine iff_of_false (Answer.errnoAfter_ne_zero hset t.errno) ?_
          intro h
          exact h.2.2 hset
        · rw [Answer.errnoAfter, if_neg hset, and_iff_left hset]
          exact ht
    | setErrno e' => exact absurd rfl (ho e')
    | forEachCtrl | errno | getTimeout | setTimeout | ioPost => exact ht
  · exact ⟨fun h => ⟨h, fun _ hm => absurd hm List.not_mem_nil⟩, fun h => h.1⟩

end

/-! ## The requests -/

namespace MiRequest

theorem plain_task {r : MiRequest} (h : ¬ r.SetsErrno) : r.task.Plain := by
  refine r.uses_task.mono fun o ho e => ?_
  rintro rfl
  exact h ho

theorem errno_setsErrno {r : MiRequest} (h : r.SetsErrno) (lib : Libnvme) (e : Int) (ep : Endpoint) :
    (r.executed lib e ep).errno = 22 := by
  cases r with
  | adminGetLogPage ctrl lid nsid lsp lsi =>
      cases lid with
      | other => rfl
      | telemetryHost =>
          obtain ⟨hcreate, hretain⟩ := not_or.mp h
          have hread : NVMeMi.readLog ctrl .telemetryHost nsid lsp = (do setErrno 22; pure (-1, [])) := by
            unfold NVMeMi.readLog
            rw [if_neg hcreate, if_neg hretain]
          change ((NVMeMi.adminGetLogPage ctrl .telemetryHost nsid lsp lsi).exec lib (.start e ep)).2.errno = 22
          unfold NVMeMi.adminGetLogPage
          rw [hread]
          rfl
      | error | smart | fwSlot | cmdEffects | deviceSelfTest | changedNs | telemetryCtrl | reservation | sanitize =>
          exact absurd trivial h
  | miPCIePortInformation | miSubsystemHealthStatusPoll | miScanCtrl | adminIdentify | adminSanitize | adminXfer
  | adminFwCommit | adminSecuritySend | adminSecurityReceive => exact h.elim

end MiRequest

/-! ## Jobs of the worker -/

/-- A request that the worker executes, with the drive behind libnvme and the endpoint that it finds. -/
structure Job where
  request : MiRequest
  lib : Libnvme
  ep : Endpoint
  posted : request.submit true = .worker request.task

namespace Job

def executed (j : Job) (e : Int) : Thread := j.request.executed j.lib e j.ep

/-- A command of the job fails and sets `errno`, or the job asks for a log page that is not known. -/
def LeavesErrno (j : Job) : Prop :=
  (∃ m ∈ (j.executed 0).made, m.ans.SetsErrno) ∨ j.request.SetsErrno

theorem errno_eq_zero_iff (j : Job) (e : Int) : (j.executed e).errno = 0 ↔ e = 0 ∧ ¬ j.LeavesErrno := by
  unfold LeavesErrno executed
  by_cases hsets : j.request.SetsErrno
  · rw [MiRequest.errno_setsErrno hsets]
    refine iff_of_false (by decide) ?_
    intro h
    exact h.2 (.inr hsets)
  · have hplain := (MiRequest.plain_task hsets).errno j.lib e j.ep
    rw [or_iff_left hsets]
    refine hplain.trans (and_congr_right ?_)
    rintro rfl
    constructor
    · rintro hnone ⟨m, hm, hset⟩
      exact hnone m hm hset
    · intro hnone m hm hset
      exact hnone ⟨m, hm, hset⟩

end Job

/-- The `errno` of the worker after a sequence of jobs. -/
def errnoAfter (e : Int) (jobs : List Job) : Int := jobs.foldl (fun e j => (j.executed e).errno) e

theorem errnoAfter_eq_zero_iff (e : Int) (jobs : List Job) :
    errnoAfter e jobs = 0 ↔ e = 0 ∧ ∀ j ∈ jobs, ¬ j.LeavesErrno := by
  induction jobs generalizing e with
  | nil => exact ⟨fun h => ⟨h, nofun⟩, fun h => h.1⟩
  | cons j jobs ih =>
      change errnoAfter _ jobs = 0 ↔ _
      rw [ih, j.errno_eq_zero_iff, List.forall_mem_cons, and_assoc]

/-! ## Security commands -/

/-- A security command that the worker executes; a receive of more than `maxNVMeMILength` bytes is refused at once. -/
inductive SecurityRequest
  | send (ctrl : Ctrl) (proto : UInt8) (proto_specific : UInt16) (data : List UInt8)
  | receive (ctrl : Ctrl) (proto : UInt8) (proto_specific : UInt16) (transfer_length : UInt32)
      (fits : transfer_length.toNat ≤ NVMeMi.maxNVMeMILength)

namespace SecurityRequest

def request : SecurityRequest → MiRequest
  | send ctrl proto proto_specific data => .adminSecuritySend ctrl proto proto_specific data
  | receive ctrl proto proto_specific transfer_length _ => .adminSecurityReceive ctrl proto proto_specific transfer_length

def call : SecurityRequest → NvmeCall
  | send ctrl proto proto_specific data =>
    .securitySend ctrl proto (proto_specific &&& 0xff).toUInt8 (proto_specific >>> 8).toUInt8 data
  | receive ctrl proto proto_specific transfer_length _ =>
    .securityRecv ctrl proto (proto_specific &&& 0xff).toUInt8 (proto_specific >>> 8).toUInt8 transfer_length.toNat

/-- The length that has been received is one that the interface takes. -/
def Acceptable (s : SecurityRequest) (a : Answer) : Prop :=
  match s with
  | send .. => True
  | receive .. => a.rc = 0 → a.out.size ≤ NVMeMi.maxNVMeMILength

instance (s : SecurityRequest) (a : Answer) : Decidable (s.Acceptable a) :=
  match s with
  | send .. => inferInstanceAs (Decidable True)
  | receive .. => inferInstanceAs (Decidable (a.rc = 0 → a.out.size ≤ NVMeMi.maxNVMeMILength))

/-- The error code is that of the outcome of the command. -/
structure Own (s : SecurityRequest) (a : Answer) (ec : ErrorCode) : Prop where
  failed : a.rc < 0 → ec = .ofErrno a.errno
  succeeded : ¬ a.rc < 0 → s.Acceptable a → ec = .noError

theorem submit_request (s : SecurityRequest) (nvmeEP : Bool) : s.request.submit nvmeEP = .worker s.request.task := by
  cases s with
  | send => rfl
  | receive ctrl proto proto_specific transfer_length fits => exact if_neg (Nat.not_lt_of_le fits)

def job (s : SecurityRequest) (lib : Libnvme) (ep : Endpoint) : Job := ⟨s.request, lib, ep, s.submit_request true⟩

section
variable (s : SecurityRequest) (lib : Libnvme) (e : Int) (ep : Endpoint)

theorem exec_adminSecurityReceive (ctrl : Ctrl) (proto : UInt8) (proto_specific : UInt16) (transfer_length : UInt32)
    (a : Answer) (ha : lib 0 (.securityRecv ctrl proto (proto_specific &&& 0xff).toUInt8
      (proto_specific >>> 8).toUInt8 transfer_length.toNat) = a) :
    ∃ payload, ((NVMeMi.adminSecurityReceive ctrl proto proto_specific transfer_length).exec lib (.start e ep)).2.posted =
      if (if a.rc = 0 then a.out.size else transfer_length.toNat) > NVMeMi.maxNVMeMILength then
        [⟨.protocol_error, payload⟩]
      else [⟨.ofErrno (a.errnoAfter e), payload⟩] := by
  unfold NVMeMi.adminSecurityReceive
  simp only [exec_bind, exec_nvme, Thread.made_start, List.length_nil, length_zeros, ha]
  generalize (if a.rc = 0 then a.out.size else transfer_length.toNat) = data_len
  by_cases hexcess : data_len > NVMeMi.maxNVMeMILength
  · refine ⟨.securityData (-1) [], ?_⟩
    rw [if_pos hexcess, if_pos hexcess]
    rfl
  · refine ⟨.securityData a.rc (resize (a.fill transfer_length.toNat (zeros transfer_length.toNat)) data_len), ?_⟩
    rw [if_neg hexcess, if_neg hexcess]
    rfl

/-- The reply has the `errno` that the command leaves. -/
theorem executed_acceptable (h : s.Acceptable (lib 0 s.call)) : ∃ payload,
    ((s.job lib ep).executed e).posted = [⟨.ofErrno ((lib 0 s.call).errnoAfter e), payload⟩] := by
  cases s with
  | send ctrl proto proto_specific data => exact ⟨_, rfl⟩
  | receive ctrl proto proto_specific transfer_length fits =>
      obtain ⟨payload, hposted⟩ := exec_adminSecurityReceive lib e ep ctrl proto proto_specific transfer_length _ rfl
      refine ⟨payload, hposted.trans (if_neg ?_)⟩
      split
      · next hrc => exact Nat.not_lt_of_le (h hrc)
      · exact Nat.not_lt_of_le fits

theorem executed_excess (h : ¬ s.Acceptable (lib 0 s.call)) : ∃ payload,
    ((s.job lib ep).executed e).posted = [⟨.protocol_error, payload⟩] := by
  cases s with
  | send => exact absurd trivial h
  | receive ctrl proto proto_specific transfer_length fits =>
      obtain ⟨hrc, hsize⟩ := Classical.not_imp.mp h
      obtain ⟨payload, hposted⟩ := exec_adminSecurityReceive lib e ep ctrl proto proto_specific transfer_length _ rfl
      refine ⟨payload, hposted.trans (if_pos ?_)⟩
      split
      · exact Nat.lt_of_not_le hsize
      · next hne => exact absurd hrc hne

end

theorem setsErrno_call (s : SecurityRequest) : s.call.SetsErrno := by
  cases s with
  | send => trivial
  | receive => trivial

theorem acceptable_of_failed (s : SecurityRequest) {a : Answer} (h : a.rc < 0) : s.Acceptable a := by
  cases s with
  | send => trivial
  | receive =>
      intro hrc
      omega

theorem ofErrno_eq_noError_iff {e : Int} : ErrorCode.ofErrno e = .noError ↔ e = 0 := by
  constructor
  · intro h
    exact congrArg ErrorCode.value h
  · rintro rfl
    rfl

/-- **Error code of a security command.** It is that of its own outcome exactly for a command that fails, for a length
that the interface does not take, and where no earlier job has left an `errno`. -/
theorem own_iff (s : SecurityRequest) (lib : Libnvme) (ep : Endpoint) (e : Int) (jobs : List Job) :
    ∃ r, ((s.job lib ep).executed (errnoAfter e jobs)).posted = [r] ∧
      (s.Own (lib 0 s.call) r.ec ↔
        (lib 0 s.call).rc < 0 ∨ ¬ s.Acceptable (lib 0 s.call) ∨ e = 0 ∧ ∀ j ∈ jobs, ¬ j.LeavesErrno) := by
  rw [← errnoAfter_eq_zero_iff]
  by_cases hacceptable : s.Acceptable (lib 0 s.call)
  · obtain ⟨payload, hposted⟩ := s.executed_acceptable lib (errnoAfter e jobs) ep hacceptable
    refine ⟨_, hposted, ?_⟩
    dsimp only
    by_cases hrc : (lib 0 s.call).rc < 0
    · rw [Answer.errnoAfter, if_pos ⟨hrc, lib.errno_set s.setsErrno_call hrc⟩]
      exact iff_of_true ⟨fun _ => rfl, fun h => absurd hrc h⟩ (.inl hrc)
    · rw [Answer.errnoAfter_of_nonneg hrc, or_iff_right hrc, or_iff_right (not_not_intro hacceptable), ← ofErrno_eq_noError_iff]
      exact ⟨fun h => h.succeeded hrc hacceptable, fun h => ⟨fun hneg => absurd hneg hrc, fun _ _ => h⟩⟩
  · obtain ⟨payload, hposted⟩ := s.executed_excess lib (errnoAfter e jobs) ep hacceptable
    refine ⟨_, hposted, iff_of_true ⟨fun hrc => ?_, fun _ h => absurd h hacceptable⟩ (.inr (.inl hacceptable))⟩
    exact absurd (s.acceptable_of_failed hrc) hacceptable

def failedScan : Job := ⟨.miScanCtrl, .failed 4, ⟨0, [], 5000⟩, rfl⟩

/-- A send that succeeds after a scan that has failed reports the errno of the scan. -/
theorem errno_of_failed_scan_reported :
    (((send ⟨1, 7⟩ 1 0 [0]).job (.ok { }) ⟨1, [⟨1, 7⟩], 5000⟩).executed (errnoAfter 0 [failedScan])).posted =
      [⟨.ofErrno 5, .security 0⟩] ∧ ¬ (send ⟨1, 7⟩ 1 0 [0]).Own (.ok { }) (.ofErrno 5) := by
  refine ⟨rfl, ?_⟩
  intro h
  exact absurd (h.succeeded (by decide) trivial) (by decide)

end SecurityRequest
end NvmeManager
