import NvmeManager.System.Observed
import NvmeManager.System.Pace

/-!
# The attempts of an initialization

An identify that fails is repeated. The counter `retry` is a member of the drive, and lives longer than an initialization.

* `Command.isIdentify` : the identify commands; `NVMeMi.identifies` : how many are outstanding;
* `NVMeDevice.attemptsLeft` : how many failures a drive takes before it goes on to the link;
* `Attempts` : what an observer knows of the attempts: how many have failed in the initialization under way, and whether
  one has failed at all;
* `Overlaps`, `Spoilt` : a scan finds a controller before the identify of another initialization has ended, or after an
  attempt of another has failed;
* `Counted` : the invariant: one identify is outstanding while an initialization is under way, and the counter is one more
  than the number of its attempts that have failed;
* `tried_of_run` : without these steps each initialization makes its attempts; `attemptsLeft_eq_limit_iff` : with a step
  that is spoilt it has more or fewer of them.
-/

namespace NvmeManager

def Command.isIdentify : Command → Bool
  | .identify _ => true
  | .scan | .portInformation | .health | .smart _ | .sanitizeLog _ | .sanitize .. => false

theorem Command.eq_identify {c : Command} (h : c.isIdentify = true) : ∃ ctrl, c = .identify ctrl := by
  cases c with
  | identify ctrl => exact ⟨ctrl, rfl⟩
  | scan | portInformation | health | smart | sanitizeLog | sanitize => cases h

theorem Command.opening_of_isIdentify {c : Command} (h : c.isIdentify = true) : c.Opening := by
  obtain ⟨ctrl, rfl⟩ := eq_identify h
  trivial

namespace NVMeMi
variable {cfg : Config} {mi mi' : NVMeMi}

def identifies (mi : NVMeMi) : Nat := mi.outstanding.countP Command.isIdentify

theorem identifies_submit (c : Command) : (mi.submit cfg c).identifies = mi.identifies + if c.isIdentify then 1 else 0 :=
  countP_submit _

theorem identifies_execute {lib : Libnvme} {errno : Int} (h : mi.execute cfg lib errno = some mi') :
    mi'.identifies = mi.identifies := by
  obtain ⟨ep, c, rest, _, hworker, rfl⟩ := execute_eq_some h
  unfold identifies outstanding
  rw [hworker]
  simp only [List.map_append, List.countP_append, List.countP_cons, List.map_map, Function.comp_def, List.map_const',
    List.countP_replicate]
  cases hc : c.isIdentify with
  | false =>
      simp
  | true =>
      rw [Command.length_posted_of_opening (Command.opening_of_isIdentify hc)]
      simp
      omega

end NVMeMi

namespace NVMeDevice
variable {cfg : Config} {d d' : NVMeDevice} {c : Command} {r : Reply} {form driveAssoc : String}

@[simp] theorem retry_inventory : (d.inventory form driveAssoc).retry = d.retry := by
  unfold inventory
  split
  · rfl
  · rfl

theorem retry_tick : (d.tick cfg).retry = d.retry := by
  unfold tick
  split
  · rfl
  · split
    · rfl
    · rfl

theorem identifies_tick : (d.tick cfg).intf.identifies = d.intf.identifies := by
  unfold tick
  split
  · exact NVMeMi.identifies_submit _
  · split
    · exact NVMeMi.identifies_submit _
    · exact (NVMeMi.identifies_submit _).trans (NVMeMi.identifies_submit _)

theorem retry_handle (h : d.handle cfg c r = some d') (hc : c.isIdentify = false) : d'.retry = d.retry := by
  cases c with
  | identify => cases hc
  | scan =>
      obtain rfl := Option.some.inj h
      unfold scanned
      split
      · rfl
      · rfl
  | portInformation | health | smart | sanitizeLog | sanitize =>
      exact (handle_frame h nofun nofun).2.2

/-- The callback of a scan that has found no controller makes no request, nor do those behind the identify. -/
theorem intf_handle (h : d.handle cfg c r = some d') (hscan : c = .scan → scanFails r) (hc : c.isIdentify = false) :
    d'.intf = d.intf := by
  rw [(handle_follow h).2]
  cases c with
  | scan =>
      rw [follow_scan_fails (hscan rfl)]
      rfl
  | identify => cases hc
  | portInformation | health | smart | sanitize => rfl
  | sanitizeLog ctrl =>
      unfold follow
      dsimp only
      split
      · rfl
      · rfl

theorem identified_failed (d : NVMeDevice) (cfg : Config) (herr : r.ec.isError = true) :
    (d.identified cfg r).retry = (if d.retry < maxIdentifyCmdRetry then d.retry + 1 else 0) ∧
      (d.identified cfg r).intf =
        d.intf.submit cfg (if d.retry < maxIdentifyCmdRetry then .identify d.ctrl else .portInformation) := by
  unfold identified
  rw [if_pos herr]
  by_cases hretry : d.retry < maxIdentifyCmdRetry
  · rw [if_pos hretry, if_pos hretry, if_pos hretry]
    exact ⟨rfl, rfl⟩
  · rw [if_neg hretry, if_neg hretry, if_neg hretry]
    exact ⟨rfl, rfl⟩

theorem toNat_retry_succ {retry : UInt8} (h : retry < maxIdentifyCmdRetry) : (retry + 1).toNat = retry.toNat + 1 := by
  have hthree : retry.toNat < 3 := UInt8.lt_iff_toNat_lt.mp h
  rw [UInt8.toNat_add]
  exact Nat.mod_eq_of_lt (show retry.toNat + 1 < 256 by omega)

/-- How many identify commands that fail one after the other the drive takes from here on. -/
def attemptsLeft (d : NVMeDevice) : Nat := maxIdentifyCmdRetry.toNat - d.retry.toNat + 1

/-- Each attempt that fails leaves one less, and the last one is followed by the link. -/
theorem attemptsLeft_identified (d : NVMeDevice) (cfg : Config) (herr : r.ec.isError = true) :
    (d.identified cfg r).intf =
        d.intf.submit cfg (if 1 < d.attemptsLeft then .identify d.ctrl else .portInformation) ∧
      (1 < d.attemptsLeft → (d.identified cfg r).attemptsLeft + 1 = d.attemptsLeft) := by
  obtain ⟨hretry, hintf⟩ := identified_failed d cfg herr
  have hmore : 1 < d.attemptsLeft ↔ d.retry < maxIdentifyCmdRetry := by
    rw [UInt8.lt_iff_toNat_lt]
    change 1 < 3 - d.retry.toNat + 1 ↔ d.retry.toNat < 3
    omega
  refine ⟨hintf.trans (congrArg _ (if_congr hmore rfl rfl).symm), fun hlt => ?_⟩
  have hless := hmore.mp hlt
  rw [if_pos hless] at hretry
  have hthree : d.retry.toNat < 3 := UInt8.lt_iff_toNat_lt.mp hless
  unfold attemptsLeft
  rw [hretry, toNat_retry_succ hless]
  change 3 - (d.retry.toNat + 1) + 1 + 1 = 3 - d.retry.toNat + 1
  omega

theorem identified_succeeded (d : NVMeDevice) (cfg : Config) (herr : r.ec.isError = false) :
    (d.identified cfg r).retry = d.retry ∧ (d.identified cfg r).intf = d.intf.submit cfg .portInformation := by
  unfold identified
  rw [herr, if_neg Bool.false_ne_true]
  exact ⟨rfl, rfl⟩

theorem scanned_succeeded (d : NVMeDevice) (cfg : Config) (hscan : ¬ scanFails r) :
    (d.scanned cfg r).retry = d.retry ∧ ∃ ctrl, (d.scanned cfg r).intf = d.intf.submit cfg (.identify ctrl) := by
  have herr : r.ec.isError = false := Bool.eq_false_iff.mpr fun he => hscan (.inl he)
  have hne : r.payload.ctrlList ≠ [] := fun hnil => hscan (.inr hnil)
  unfold scanned
  rw [herr, List.getLast?_eq_getLast_of_ne_nil hne]
  exact ⟨rfl, _, rfl⟩

end NVMeDevice

/-! ## The observer -/

/-- The attempts of the initializations. -/
structure Attempts where
  /-- How many have failed in the initialization under way, from the end of its scan to the end of its identify. -/
  underWay : Option Nat
  /-- One has failed, in whichever initialization. -/
  failed : Bool
  deriving DecidableEq

namespace Attempts

def init : Attempts := ⟨none, false⟩

def limit : Nat := NVMeDevice.maxIdentifyCmdRetry.toNat

def see (a : Attempts) (q : Pending) : Attempts :=
  match q.command with
  | .scan => if NVMeDevice.scanFails q.reply then a else { a with underWay := some 0 }
  | .identify _ =>
    if q.reply.ec.isError then
      ⟨a.underWay.bind fun n => if n + 1 < limit then some (n + 1) else none, true⟩
    else { a with underWay := none }
  | _ => a

/-- What the callback of an identify has to do, after `n` attempts that have failed. -/
def expected (n : Nat) (ctrl : Ctrl) (r : Reply) : Command :=
  if r.ec.isError = true ∧ n + 1 < limit then .identify ctrl else .portInformation

def count (a : Attempts) : Nat := if a.underWay.isSome then 1 else 0

end Attempts

namespace Observed
variable {cfg : Config} {o o' : Observed Attempts} {e : Event}

/-- A scan finds a controller while the identify of an initialization has not been answered. -/
def Overlaps (o : Observed Attempts) : Event → Prop
  | .deliver => ∃ q ∈ o.proc.drive.intf.io.head?, q.command = .scan ∧ ¬ NVMeDevice.scanFails q.reply ∧
      o.seen.underWay.isSome = true
  | _ => False

/-- A scan finds a controller after an attempt of another initialization has failed. -/
def Spoilt (o : Observed Attempts) : Event → Prop
  | .deliver => ∃ q ∈ o.proc.drive.intf.io.head?, q.command = .scan ∧ ¬ NVMeDevice.scanFails q.reply ∧
      o.seen.failed = true
  | _ => False

/-- The counter of the drive, and the identify commands that are outstanding. -/
structure Counted (o : Observed Attempts) : Prop where
  identifies : o.proc.drive.intf.identifies = o.seen.count
  underWay : ∀ n, o.seen.underWay = some n → n < Attempts.limit ∧ o.proc.drive.retry.toNat = n + 1 ∧
    (o.seen.failed = true ↔ n ≠ 0)
  rest : o.seen.underWay = none → o.proc.drive.retry.toNat ≤ Attempts.limit ∧
    (o.seen.failed = true ↔ o.proc.drive.retry ≠ 1)

theorem Counted.of_eq (hc : o.Counted) (hseen : o'.seen = o.seen) (hretry : o'.proc.drive.retry = o.proc.drive.retry)
    (hintf : o'.proc.drive.intf.identifies = o.proc.drive.intf.identifies) : o'.Counted := by
  refine ⟨?_, ?_, ?_⟩
  · rw [hintf, hseen]
    exact hc.identifies
  · rw [hretry, hseen]
    exact hc.underWay
  · rw [hretry, hseen]
    exact hc.rest

theorem counted_start (props : NvmeInterfaces) (u : Uninitialised) (eid : UInt8) (bus : UInt32) (path : String)
    (timeout : Option Nat) : (start cfg .init props u eid bus path timeout).Counted := by
  refine ⟨rfl, nofun, fun _ => ⟨?_, ?_⟩⟩
  · change (1 : UInt8).toNat ≤ 3
    decide
  · change false = true ↔ (1 : UInt8) ≠ 1
    decide

theorem identifies_pop {q : Pending} {rest : List Pending} (hio : o.proc.drive.intf.io = q :: rest) :
    o.proc.drive.intf.identifies = (if q.command.isIdentify then 1 else 0) + (o.proc.popped rest).intf.identifies :=
  NVMeMi.countP_pop _ hio

/-- A callback of another command tells nothing about the attempts. -/
theorem see_other {a : Attempts} {q : Pending} (hscan : q.command = .scan → NVMeDevice.scanFails q.reply)
    (hid : q.command.isIdentify = false) : a.see q = a := by
  unfold Attempts.see
  cases hq : q.command with
  | scan => exact if_pos (hscan hq)
  | identify =>
      rw [hq] at hid
      cases hid
  | portInformation | health | smart | sanitizeLog | sanitize => rfl

/-- A callback that makes no request, or is the one of a scan that has found no controller. -/
theorem counted_other {q : Pending} {rest : List Pending} (hc : o.Counted) (hio : o.proc.drive.intf.io = q :: rest)
    (hscan : q.command = .scan → NVMeDevice.scanFails q.reply) (hid : q.command.isIdentify = false)
    (hseen : o'.seen = o.seen.see q) (hretry : o'.proc.drive.retry = o.proc.drive.retry)
    (hintf : o'.proc.drive.intf = (o.proc.popped rest).intf) : o'.Counted := by
  refine hc.of_eq (hseen.trans (see_other hscan hid)) hretry ?_
  rw [hintf, identifies_pop hio, hid, if_neg Bool.false_ne_true, Nat.zero_add]

/-- The callback of an identify belongs to an initialization under way, and is the only one outstanding. -/
theorem Counted.of_identify {q : Pending} {rest : List Pending} (hc : o.Counted)
    (hio : o.proc.drive.intf.io = q :: rest) (hid : q.command.isIdentify = true) :
    (∃ n, o.seen.underWay = some n) ∧ (o.proc.popped rest).intf.identifies = 0 := by
  have hpop := identifies_pop hio
  rw [hc.identifies, if_pos hid] at hpop
  unfold Attempts.count at hpop
  cases hunder : o.seen.underWay with
  | none =>
      rw [hunder] at hpop
      change 0 = _ at hpop
      omega
  | some n =>
      rw [hunder] at hpop
      change 1 = _ at hpop
      exact ⟨⟨n, rfl⟩, by omega⟩

theorem lt_max_iff {retry : UInt8} {n : Nat} (h : retry.toNat = n + 1) :
    retry < NVMeDevice.maxIdentifyCmdRetry ↔ n + 1 < Attempts.limit := by
  rw [UInt8.lt_iff_toNat_lt, h]
  rfl

theorem counted_identified {q : Pending} {rest : List Pending} {ctrl : Ctrl} {n : Nat} (hc : o.Counted)
    (hio : o.proc.drive.intf.io = q :: rest) (hq : q.command = .identify ctrl) (hn : o.seen.underWay = some n)
    (hseen : o'.seen = o.seen.see q) (hdrive : o'.proc.drive = (o.proc.popped rest).identified cfg q.reply) :
    o'.Counted := by
  obtain ⟨_, hnone⟩ := hc.of_identify hio (by rw [hq]; rfl)
  obtain ⟨hlt, hretry, hfailed⟩ := hc.underWay n hn
  rw [Attempts.see, hq] at hseen
  dsimp only at hseen
  have hretry : (o.proc.popped rest).retry.toNat = n + 1 := hretry
  have hzero : ∀ c, ((o.proc.popped rest).intf.submit cfg c).identifies = 0 + if c.isIdentify then 1 else 0 := fun c => by
    rw [NVMeMi.identifies_submit, hnone]
  cases herr : q.reply.ec.isError with
  | true =>
      have hafter := (o.proc.popped rest).identified_failed cfg herr
      rw [← hdrive] at hafter
      rw [if_pos herr, hn, Option.bind_some] at hseen
      by_cases hlimit : n + 1 < Attempts.limit
      · have hless := (lt_max_iff hretry).mpr hlimit
        rw [if_pos hless, if_pos hless] at hafter
        obtain ⟨hretry', hintf⟩ := hafter
        rw [if_pos hlimit] at hseen
        refine ⟨?_, ?_, ?_⟩
        · rw [hintf, hzero, hseen]
          rfl
        · rw [hseen]
          rintro _ ⟨⟩
          refine ⟨hlimit, ?_, by simp⟩
          rw [hretry', UInt8.toNat_add]
          change ((o.proc.popped rest).retry.toNat + 1) % 256 = _
          rw [hretry, Nat.mod_eq_of_lt]
          exact Nat.lt_of_lt_of_le (Nat.succ_lt_succ hlimit) (by decide)
        · rw [hseen]
          exact nofun
      · have hless := mt (lt_max_iff hretry).mp hlimit
        rw [if_neg hless, if_neg hless] at hafter
        obtain ⟨hretry', hintf⟩ := hafter
        rw [if_neg hlimit] at hseen
        refine ⟨?_, ?_, ?_⟩
        · rw [hintf, hzero, hseen]
          rfl
        · rw [hseen]
          exact nofun
        · rw [hseen, hretry']
          exact fun _ => ⟨Nat.zero_le _, by decide⟩
  | false =>
      have hafter := (o.proc.popped rest).identified_succeeded cfg herr
      rw [← hdrive] at hafter
      obtain ⟨hretry', hintf⟩ := hafter
      rw [herr, if_neg Bool.false_ne_true] at hseen
      refine ⟨?_, ?_, ?_⟩
      · rw [hintf, hzero, hseen]
        rfl
      · rw [hseen]
        exact nofun
      · rw [hseen, hretry']
        refine fun _ => ⟨?_, ?_⟩
        · rw [hretry]
          exact hlt
        · have hone : (o.proc.popped rest).retry = 1 ↔ n = 0 := by
            rw [← UInt8.toNat_inj, hretry]
            exact Nat.succ_inj
          exact hfailed.trans (not_congr hone).symm

/-- The steps of initializations that do not overlap, as long as no attempt of an earlier one has failed. -/
def Unspoilt (o : Observed Attempts) (e : Event) : Prop := ¬ o.Overlaps e ∧ ¬ o.Spoilt e

theorem scanned_of_step {q : Pending} {rest : List Pending} (hio : o.proc.drive.intf.io = q :: rest)
    (hq : q.command = .scan) (hscan : ¬ NVMeDevice.scanFails q.reply) (h : o.Step Attempts.see cfg .deliver o') :
    o'.seen = { o.seen with underWay := some 0 } ∧ o'.proc.drive.retry = o.proc.drive.retry ∧
      ∃ ctrl, o'.proc.drive.intf = (o.proc.popped rest).intf.submit cfg (.identify ctrl) := by
  have hhandle : (o.proc.popped rest).handle cfg q.command q.reply = some ((o.proc.popped rest).scanned cfg q.reply) := by
    rw [hq]
    rfl
  obtain ⟨hdrive, hseen⟩ := h.deliver hio hhandle
  obtain ⟨hretry, hintf⟩ := (o.proc.popped rest).scanned_succeeded cfg hscan
  rw [← hdrive] at hretry hintf
  refine ⟨?_, hretry, hintf⟩
  rw [hseen, Attempts.see, hq]
  dsimp only
  rw [if_neg hscan]

theorem underWay_of_not_overlaps {q : Pending} {rest : List Pending} (hio : o.proc.drive.intf.io = q :: rest)
    (hq : q.command = .scan) (hscan : ¬ NVMeDevice.scanFails q.reply) (hover : ¬ o.Overlaps .deliver) :
    o.seen.underWay = none := by
  cases hunder : o.seen.underWay with
  | none => rfl
  | some n =>
      have hhead : q ∈ o.proc.drive.intf.io.head? := by
        rw [hio]
        rfl
      exact absurd ⟨q, hhead, hq, hscan, by rw [hunder]; rfl⟩ hover

theorem counted_scanned {q : Pending} {rest : List Pending} (hc : o.Counted) (hio : o.proc.drive.intf.io = q :: rest)
    (hq : q.command = .scan) (hscan : ¬ NVMeDevice.scanFails q.reply) (hok : o.Unspoilt .deliver)
    (h : o.Step Attempts.see cfg .deliver o') : o'.Counted := by
  have hunder := underWay_of_not_overlaps hio hq hscan hok.1
  have hfailed : o.seen.failed ≠ true := by
    intro hfailed
    refine hok.2 ⟨q, ?_, hq, hscan, hfailed⟩
    rw [hio]
    rfl
  have hone : o.proc.drive.retry = 1 := not_ne_iff.mp (mt (hc.rest hunder).2.mpr hfailed)
  have hnone : (o.proc.popped rest).intf.identifies = 0 := by
    have hpop := identifies_pop hio
    rw [hc.identifies, Attempts.count, hunder, hq] at hpop
    change 0 = 0 + _ at hpop
    omega
  obtain ⟨hseen, hretry, ctrl, hintf⟩ := scanned_of_step hio hq hscan h
  refine ⟨?_, ?_, ?_⟩
  · rw [hintf, NVMeMi.identifies_submit, hnone, hseen]
    rfl
  · rw [hseen, hretry, hone]
    rintro _ ⟨⟩
    exact ⟨by decide, rfl, by simpa using hfailed⟩
  · rw [hseen]
    exact nofun

/-- **Step.** A step that neither overlaps nor is spoilt keeps the counter and the attempts in agreement. -/
theorem counted_of_step (hc : o.Counted) (hok : o.Unspoilt e) (h : o.Step Attempts.see cfg e o') :
    o'.Counted := by
  obtain ⟨proc', hstep, rfl⟩ := h.eq
  cases (Process.turn_of_step hstep).2 with
  | initializeDrive =>
      refine hc.of_eq rfl rfl ?_
      exact NVMeMi.identifies_submit _
  | inventory => exact hc.of_eq rfl NVMeDevice.retry_inventory (congrArg _ NVMeDevice.intf_inventory)
  | writeFault | refused | expire => exact hc.of_eq rfl rfl rfl
  | erased herase =>
      rcases (NVMeDevice.erase_eq_ok herase).2 with ⟨_, rfl⟩ | ⟨_, rfl⟩
      · exact hc.of_eq rfl rfl rfl
      · refine hc.of_eq rfl rfl ?_
        exact NVMeMi.identifies_submit _
  | tick => exact hc.of_eq rfl NVMeDevice.retry_tick NVMeDevice.identifies_tick
  | execute hmi => exact hc.of_eq rfl rfl (NVMeMi.identifies_execute hmi)
  | @deliver q rest d hio hhandle =>
      have hseen : o.learnt Attempts.see .deliver = o.seen.see q := learnt_deliver hio
      cases hid : q.command.isIdentify with
      | true =>
          obtain ⟨⟨n, hn⟩, _⟩ := hc.of_identify hio hid
          obtain ⟨ctrl, hq⟩ := Command.eq_identify hid
          rw [hq] at hhandle
          exact counted_identified hc hio hq hn hseen (Option.some.inj hhandle).symm
      | false =>
          by_cases hscan : q.command = .scan → NVMeDevice.scanFails q.reply
          · have hretry : d.retry = (o.proc.popped rest).retry := NVMeDevice.retry_handle hhandle hid
            exact counted_other hc hio hscan hid hseen hretry (NVMeDevice.intf_handle hhandle hscan hid)
          · obtain ⟨hq, hscan⟩ := Classical.not_imp.mp hscan
            exact counted_scanned hc hio hq hscan hok h
  | abort hio hnone =>
      obtain ⟨ctrl, hq, _⟩ := NVMeDevice.handle_eq_none hnone
      exact counted_other hc hio (by rw [hq]; exact nofun) (by rw [hq]; rfl) (learnt_deliver hio) rfl rfl

/-- What the callbacks of an initialization do. -/
structure Tries (cfg : Config) (o : Observed Attempts) : Prop where
  /-- One identify is outstanding from the end of a scan to the end of its identify, and none at other times. -/
  outstanding : o.proc.drive.intf.identifies = o.seen.count
  begins : ∀ q rest o', o.proc.drive.intf.io = q :: rest → q.command = .scan → ¬ NVMeDevice.scanFails q.reply →
    o.Step Attempts.see cfg .deliver o' → o'.seen.underWay = some 0 ∧
      ∃ ctrl, o'.proc.drive.intf = (o.proc.popped rest).intf.submit cfg (.identify ctrl)
  carriesOn : ∀ q rest ctrl o', o.proc.drive.intf.io = q :: rest → q.command = .identify ctrl →
    o.Step Attempts.see cfg .deliver o' → ∃ n < Attempts.limit, o.seen.underWay = some n ∧
      o'.proc.drive.intf = (o.proc.popped rest).intf.submit cfg (Attempts.expected n o.proc.drive.ctrl q.reply)

theorem tries_of_counted (hc : o.Counted) : o.Tries cfg := by
  refine ⟨hc.identifies, fun q rest o' hio hq hscan h => ?_, fun q rest ctrl o' hio hq h => ?_⟩
  · obtain ⟨hseen, _, hintf⟩ := scanned_of_step hio hq hscan h
    exact ⟨congrArg Attempts.underWay hseen, hintf⟩
  · have hhandle : (o.proc.popped rest).handle cfg q.command q.reply =
        some ((o.proc.popped rest).identified cfg q.reply) := by
      rw [hq]
      rfl
    obtain ⟨hdrive, _⟩ := h.deliver hio hhandle
    obtain ⟨⟨n, hn⟩, _⟩ := hc.of_identify hio (by rw [hq]; rfl)
    obtain ⟨hlt, hretry, _⟩ := hc.underWay n hn
    refine ⟨n, hlt, hn, ?_⟩
    rw [hdrive]
    unfold Attempts.expected
    cases herr : q.reply.ec.isError with
    | true =>
        rw [((o.proc.popped rest).identified_failed cfg herr).2]
        have hiff : (o.proc.popped rest).retry < NVMeDevice.maxIdentifyCmdRetry ↔ true = true ∧ n + 1 < Attempts.limit :=
          (lt_max_iff hretry).trans (and_iff_right rfl).symm
        exact congrArg _ (if_congr hiff rfl rfl)
    | false => rw [((o.proc.popped rest).identified_succeeded cfg herr).2, if_neg fun hboth => Bool.false_ne_true hboth.1]

section
variable {props : NvmeInterfaces} {u : Uninitialised} {eid : UInt8} {bus : UInt32} {path : String}
  {timeout : Option Nat} {es : List Event}

theorem counted_of_run
    (hrun : Run (guarded Unspoilt (Step Attempts.see cfg)) (start cfg .init props u eid bus path timeout) es o) :
    o.Counted :=
  hrun.guarded_invariant Counted (counted_start ..) fun _ _ _ hc hok h => counted_of_step hc hok h

/-- **Attempts of an initialization.** In a run of initializations that do not overlap, none of which scans after an
attempt of another has failed, each issues identify commands until one succeeds or `maxIdentifyCmdRetry` have failed, and
then goes on to the link. -/
theorem tried_of_run
    (hrun : Run (guarded Unspoilt (Step Attempts.see cfg)) (start cfg .init props u eid bus path timeout) es o) :
    o.Tries cfg :=
  tries_of_counted (counted_of_run hrun)

end

/-- Where a scan finds a controller, the initialization may make as many attempts as it should if and only if no attempt of
another one has failed. -/
theorem attemptsLeft_eq_limit_iff {q : Pending} {rest : List Pending} (hc : o.Counted)
    (hio : o.proc.drive.intf.io = q :: rest) (hq : q.command = .scan) (hscan : ¬ NVMeDevice.scanFails q.reply)
    (hover : ¬ o.Overlaps .deliver) (h : o.Step Attempts.see cfg .deliver o') :
    o'.proc.drive.attemptsLeft = Attempts.limit ↔ ¬ o.Spoilt .deliver := by
  have hspoilt : o.Spoilt .deliver ↔ o.seen.failed = true := by
    unfold Spoilt
    dsimp only
    rw [hio, List.head?_cons]
    constructor
    · rintro ⟨p, hp, -, -, hfailed⟩
      exact hfailed
    · intro hfailed
      exact ⟨q, rfl, hq, hscan, hfailed⟩
  have hretry : o'.proc.drive.retry = o.proc.drive.retry := (scanned_of_step hio hq hscan h).2.1
  have hone : o.proc.drive.attemptsLeft = Attempts.limit ↔ o.proc.drive.retry = 1 := by
    rw [← UInt8.toNat_inj]
    change 3 - o.proc.drive.retry.toNat + 1 = 3 ↔ o.proc.drive.retry.toNat = 1
    omega
  rw [hspoilt, (hc.rest (underWay_of_not_overlaps hio hq hscan hover)).2, not_ne_iff, ← hone]
  unfold NVMeDevice.attemptsLeft
  rw [hretry]

/-! ## A drive that is initialized twice -/

instance (o : Observed Attempts) (e : Event) : Decidable (o.Overlaps e) := by
  unfold Overlaps
  split
  · infer_instance
  · infer_instance

instance (o : Observed Attempts) (e : Event) : Decidable (o.Spoilt e) := by
  unfold Spoilt
  split
  · infer_instance
  · infer_instance

instance (o : Observed Attempts) (e : Event) : Decidable (o.Unspoilt e) := by
  unfold Unspoilt
  infer_instance

/-- The drive is scanned, and `n` attempts to identify it fail. -/
def failingRun (n : Nat) : List Event :=
  [.initializeDrive, .execute (.ok { handles := [7] }) 0, .deliver] ++
    (List.replicate n [.execute (.failed 5) 0, .deliver]).flatten

def linkRun : List Event := [.execute (.ok { }) 0, .deliver]

/-- The theorem at two attempts that fail: a third is made. -/
theorem tried_of_run_twice : ∃ o,
    Run (guarded Unspoilt (Step Attempts.see .standard)) (start .standard .init default default 10 3 "/drive" (some 5000))
      (failingRun 2) o ∧ o.seen.underWay = some 2 ∧ o.proc.drive.intf.identifies = 1 := by
  have hfacts : ((failingRun 2).foldlM
      (fun (o : Observed Attempts) e => if o.Unspoilt e then o.next Attempts.see .standard e else none)
      (start .standard .init default default 10 3 "/drive" (some 5000))).any (fun o => o.seen.underWay = some 2) = true := by
    decide +kernel
  obtain ⟨o, ho, hunder⟩ := (Option.any_eq_true _ _).mp hfacts
  rw [decide_eq_true_eq] at hunder
  have hrun : Run (guarded Unspoilt (Step Attempts.see .standard))
      (start .standard .init default default 10 3 "/drive" (some 5000)) (failingRun 2) o := Run.guarded_of_foldlM ho
  refine ⟨o, hrun, hunder, ?_⟩
  rw [(tried_of_run hrun).outstanding, Attempts.count, hunder]
  rfl

/-- The first initialization gives up after three attempts. In the second three attempts have failed as well, and a
fourth is under way. -/
theorem fourth_attempt_made : ∃ o,
    Run (guarded (fun o e => ¬ Overlaps o e) (Step Attempts.see .standard))
      (start .standard .init default default 10 3 "/drive" (some 5000)) (failingRun 3 ++ linkRun ++ failingRun 3) o ∧
      o.seen.underWay = none ∧ o.proc.drive.intf.identifies = 1 ∧ ¬ o.Tries .standard := by
  have hfacts : ((failingRun 3 ++ linkRun ++ failingRun 3).foldlM
      (fun (o : Observed Attempts) e => if ¬ o.Overlaps e then o.next Attempts.see .standard e else none)
      (start .standard .init default default 10 3 "/drive" (some 5000))).any (fun o =>
        o.seen.underWay = none && o.proc.drive.intf.identifies = 1) = true := by
    decide +kernel
  obtain ⟨o, ho, hfacts⟩ := (Option.any_eq_true _ _).mp hfacts
  rw [Bool.and_eq_true, decide_eq_true_eq, decide_eq_true_eq] at hfacts
  obtain ⟨hunder, hone⟩ := hfacts
  refine ⟨o, Run.guarded_of_foldlM ho, hunder, hone, fun htries => ?_⟩
  have hout := htries.outstanding
  rw [hone, Attempts.count, hunder] at hout
  cases hout

end Observed
end NvmeManager
