import NvmeManager.System.Estimate
import NvmeManager.System.Pace

/-!
# The percentage of a sanitize

Each log that says that a sanitize is in progress adds the poll interval to the time that has passed; the percentage is
computed from that time and from the estimate, both of 32 bits.

* `seconds`, `duePercent` : the time after a number of logs, and the percentage of it;
* `elapsed`, `storedPercent` : the two in 32 bits; `storedPercent_eq_iff` : the percentage is the right one as long as
  nothing has wrapped around that matters, `Exact`;
* `readsAfter` : an observer who counts the logs of a sanitize; `Reports` : the drive reports the same estimate;
* `Counting` : what a callback does to the time, the percentage and the count; `Counted` : the time and the percentage
  are those of the count;
* `percent_exact_iff` : so after each log the percentage is the right one, and is not below the one before, if and only
  if the count is `Exact`.
-/

namespace NvmeManager

/-! ## Percentages -/

/-- The seconds that have passed after `k` logs. -/
def seconds (k : Nat) : Nat := DriveView.pollInterval.toNat * k

/-- The percentage that they are of the estimate, below 100. -/
def duePercent (estimate k : Nat) : Nat := min 99 (100 * seconds k / estimate)

def elapsed (k : Nat) : Nat := seconds k % UInt32.size

def storedPercent (estimate k : Nat) : Nat :=
  if estimate ≤ elapsed k then 99 else elapsed k * 100 % UInt32.size / estimate

/-- What wraps around makes no difference: the seconds have reached the estimate, or they can be multiplied by 100 and
have not wrapped, or they have, but to the last percent. -/
def Exact (estimate k : Nat) : Prop :=
  estimate ≤ elapsed k ∨
    elapsed k * 100 < UInt32.size ∧ (seconds k < UInt32.size ∨ 99 * estimate ≤ elapsed k * 100)

instance (estimate k : Nat) : Decidable (Exact estimate k) := inferInstanceAs (Decidable (_ ∨ _))

theorem duePercent_mono (estimate : Nat) {k k' : Nat} (h : k ≤ k') :
    duePercent estimate k ≤ duePercent estimate k' := by
  have hdiv : 100 * seconds k / estimate ≤ 100 * seconds k' / estimate :=
    Nat.div_le_div_right (Nat.mul_le_mul_left 100 (Nat.mul_le_mul_left _ h))
  exact Nat.le_min.mpr ⟨Nat.min_le_left _ _, Nat.le_trans (Nat.min_le_right _ _) hdiv⟩

/-- A dividend that wraps around gives a smaller quotient. -/
theorem mod_div_lt_div {n d size : Nat} (hd : 0 < d) (hsize : d ≤ size) (h : size ≤ n) : n % size / d < n / d := by
  have hmod : n % size + size ≤ n := by
    have hdiv : 1 ≤ n / size := (Nat.one_le_div_iff (Nat.lt_of_lt_of_le hd hsize)).mpr h
    have hmul : size * 1 ≤ size * (n / size) := Nat.mul_le_mul_left size hdiv
    have heq := Nat.mod_add_div n size
    omega
  calc n % size / d < n % size / d + 1 := Nat.lt_succ_self _
    _ = (n % size + d) / d := (Nat.add_div_right _ hd).symm
    _ ≤ n / d := Nat.div_le_div_right (by omega)

section
variable {estimate k : Nat}

theorem elapsed_le (k : Nat) : elapsed k ≤ seconds k := Nat.mod_le _ _

theorem duePercent_late (hpos : 0 < estimate) (h : estimate ≤ seconds k) : duePercent estimate k = 99 := by
  refine min_eq_left ?_
  rw [Nat.le_div_iff_mul_le hpos]
  omega

theorem div_lt_of_early (hearly : elapsed k < estimate) : elapsed k * 100 / estimate < 100 :=
  Nat.div_lt_of_lt_mul (Nat.mul_lt_mul_of_pos_right hearly (by decide))

/-- The percentage that is stored is never too high. -/
theorem storedPercent_le (hpos : 0 < estimate) (k : Nat) : storedPercent estimate k ≤ duePercent estimate k := by
  have hle := elapsed_le k
  unfold storedPercent
  split
  · next hlate =>
      rw [duePercent_late hpos (Nat.le_trans hlate hle)]
  · next hearly =>
      have hstored : elapsed k * 100 % UInt32.size / estimate ≤ elapsed k * 100 / estimate :=
        Nat.div_le_div_right (Nat.mod_le _ _)
      have hdue : elapsed k * 100 / estimate ≤ 100 * seconds k / estimate := Nat.div_le_div_right (by omega)
      have hlt := div_lt_of_early (Nat.lt_of_not_le hearly)
      exact le_min (by omega) (Nat.le_trans hstored hdue)

/-- It is the right one exactly if nothing has wrapped around that matters. -/
theorem storedPercent_eq_iff (hpos : 0 < estimate) (hlt : estimate < UInt32.size) (k : Nat) :
    storedPercent estimate k = duePercent estimate k ↔ Exact estimate k := by
  have hle := elapsed_le k
  unfold storedPercent Exact
  by_cases hlate : estimate ≤ elapsed k
  · rw [if_pos hlate, duePercent_late hpos (Nat.le_trans hlate hle)]
    exact iff_of_true rfl (.inl hlate)
  rw [if_neg hlate, or_iff_right hlate]
  have hbelow := div_lt_of_early (Nat.lt_of_not_le hlate)
  by_cases htime : seconds k < UInt32.size
  · have helapsed : elapsed k = seconds k := Nat.mod_eq_of_lt htime
    have hdue : duePercent estimate k = elapsed k * 100 / estimate := by
      unfold duePercent
      rw [helapsed] at hbelow ⊢
      rw [Nat.mul_comm 100]
      exact min_eq_right (Nat.le_of_lt_succ hbelow)
    rw [hdue, and_iff_left (.inl htime)]
    by_cases hproduct : elapsed k * 100 < UInt32.size
    · rw [Nat.mod_eq_of_lt hproduct]
      exact iff_of_true rfl hproduct
    · exact iff_of_false (Nat.ne_of_lt (mod_div_lt_div hpos (Nat.le_of_lt hlt) (Nat.le_of_not_lt hproduct))) hproduct
  · rw [duePercent_late hpos (by omega), or_iff_right htime]
    by_cases hproduct : elapsed k * 100 < UInt32.size
    · rw [Nat.mod_eq_of_lt hproduct, and_iff_right hproduct, ← Nat.le_div_iff_mul_le hpos]
      omega
    · -- the product has wrapped below the last percent
      have hwrap := mod_div_lt_div hpos (Nat.le_of_lt hlt) (Nat.le_of_not_lt hproduct)
      exact iff_of_false (by omega) fun h => hproduct h.1

end

/-! ## The count of the logs -/

/-- A log that says that the sanitize is in progress. -/
def Pending.SaysInProgress (q : Pending) : Prop :=
  (∃ ctrl, q.command = .sanitizeLog ctrl) ∧ q.reply.ec.isError = false ∧
    (SanitizeLogPage.parse q.reply.payload.bytes).res = NVME_SANITIZE_SSTAT_STATUS_IN_PROGESS

/-- The logs since the sanitize was started that say that it is in progress; none while it is not. -/
def readsAfter (seen : Option Nat) (q : Pending) : Option Nat :=
  match q.command with
  | .sanitize .. => if q.reply.ec.isError then seen else some 0
  | .sanitizeLog _ =>
    if q.reply.ec.isError then seen
    else if (SanitizeLogPage.parse q.reply.payload.bytes).res = NVME_SANITIZE_SSTAT_STATUS_IN_PROGESS then
      seen.map Nat.succ
    else
      none
  | _ => seen

/-- A log that is read has this estimate for the sanitize that is in progress. -/
def Reports (estimate : UInt32) (o : Observed (Option Nat)) (e : Event) : Prop :=
  e = .deliver → ∀ q ∈ o.proc.drive.intf.io.head?, q.SaysInProgress →
    o.proc.drive.estimate (SanitizeLogPage.parse q.reply.payload.bytes) = estimate

namespace DriveView
variable {cfg : Config} {v v' : DriveView} {estimate : UInt32} {k : Nat}

theorem updatePercent_isSome (hzero : estimate ≠ 0) (hmax : estimate ≠ 0xFFFFFFFF) :
    ∃ v', v.updatePercent cfg estimate = some v' := by
  unfold updatePercent
  dsimp only
  rw [if_neg hmax, if_neg hzero]
  exact ⟨_, rfl⟩

theorem toNat_elapsed (htime : v.estimatedTime.toNat = elapsed k) :
    (v.estimatedTime + pollInterval.toUInt32).toNat = elapsed (k + 1) := by
  have hinterval : pollInterval.toUInt32.toNat = 5 := rfl
  have hseconds (n : Nat) : seconds n = 5 * n := rfl
  unfold elapsed at htime ⊢
  rw [UInt32.toNat_add, htime, hinterval, hseconds, hseconds, Nat.mul_succ]
  exact Nat.mod_add_mod (5 * k) UInt32.size 5

theorem updatePercent_counted (hzero : estimate ≠ 0) (hmax : estimate ≠ 0xFFFFFFFF)
    (htime : v.estimatedTime.toNat = elapsed k) (h : v.updatePercent cfg estimate = some v') :
    v'.estimatedTime.toNat = elapsed (k + 1) ∧ v'.props.progress.toNat = storedPercent estimate.toNat (k + 1) := by
  have htime' := toNat_elapsed htime
  unfold updatePercent at h
  dsimp only at h
  rw [if_neg hmax, if_neg hzero] at h
  obtain rfl := Option.some.inj h
  refine ⟨htime', ?_⟩
  dsimp only
  generalize v.estimatedTime + pollInterval.toUInt32 = time at htime'
  unfold storedPercent
  rw [← htime']
  by_cases hlate : estimate.toNat ≤ time.toNat
  · rw [if_pos hlate, if_pos (UInt32.le_iff_toNat_le.mpr hlate)]
    rfl
  · rw [if_neg hlate, if_neg fun h => hlate (UInt32.le_iff_toNat_le.mp h), UInt32.toNat_toUInt8, UInt32.toNat_div,
      UInt32.toNat_mul]
    refine Nat.mod_eq_of_lt (Nat.lt_trans ?_ (by decide : 100 < 2 ^ 8))
    refine Nat.div_lt_of_lt_mul (Nat.lt_of_le_of_lt (Nat.mod_le _ _) ?_)
    exact Nat.mul_lt_mul_of_pos_right (Nat.lt_of_not_le hlate) (by decide)

end DriveView

theorem NVMeDevice.sanitizeLogRead_usable {cfg : Config} {d : NVMeDevice} {r : Reply} {estimate : UInt32}
    (hzero : estimate ≠ 0) (hmax : estimate ≠ 0xFFFFFFFF) (herr : r.ec.isError = false)
    (hres : (SanitizeLogPage.parse r.payload.bytes).res = NVME_SANITIZE_SSTAT_STATUS_IN_PROGESS)
    (hestimate : d.estimate (SanitizeLogPage.parse r.payload.bytes) = estimate) :
    ∃ v, d.updatePercent cfg estimate = some v ∧ d.sanitizeLogRead cfg r = some { d with toDriveView := v } := by
  obtain ⟨v, hv⟩ := @DriveView.updatePercent_isSome cfg d.toDriveView estimate hzero hmax
  refine ⟨v, hv, ?_⟩
  rw [sanitizeLogRead_inProgress herr hres, hestimate, hv]
  rfl

/-- What a callback does to the time, the percentage and the count. -/
inductive Counting (cfg : Config) (v : DriveView) (q : Pending) (v' : DriveView) (seen : Option Nat) :
    Option Nat → Prop
  | same : v'.estimatedTime = v.estimatedTime → v'.props.progress = v.props.progress → Counting cfg v q v' seen seen
  | started : v'.estimatedTime = 0 → Counting cfg v q v' seen (some 0)
  | ended : Counting cfg v q v' seen none
  | log : q.SaysInProgress →
      v.updatePercent cfg (v.estimate (SanitizeLogPage.parse q.reply.payload.bytes)) = some v' →
        Counting cfg v q v' seen (seen.map Nat.succ)

/-- The time that has passed is that of the logs, and so is the percentage after the first of them. -/
structure Counted (estimate : UInt32) (m : SanitizeMembers) (seen : Option Nat) : Prop where
  time : ∀ k ∈ seen, m.estimatedTime.toNat = elapsed k
  percent : ∀ k ∈ seen, k ≠ 0 → m.progress.toNat = storedPercent estimate.toNat k

/-- The time is zero when a sanitize starts. -/
def Fresh (m : SanitizeMembers) (seen : Option Nat) : Prop := seen = some 0 → m.estimatedTime = 0

section
variable {cfg : Config} {v v' : DriveView} {seen : Option Nat} {estimate : UInt32} {q : Pending}

theorem counting_of_replied (h : NVMeDevice.replied cfg v q.command q.reply = some v') :
    Counting cfg v q v' seen (readsAfter seen q) := by
  obtain ⟨c, r, n⟩ := q
  by_cases hc : c.Unrelated
  · have hmembers := NVMeDevice.sanitizeMembers_replied hc h
    have hseen : readsAfter seen ⟨c, r, n⟩ = seen := by
      cases c with
      | scan | portInformation | health | smart => rfl
      | identify | sanitizeLog | sanitize => exact hc.elim
    rw [hseen]
    exact .same (congrArg SanitizeMembers.estimatedTime hmembers) (congrArg SanitizeMembers.progress hmembers)
  cases c with
  | scan | portInformation | health | smart => exact absurd trivial hc
  | identify ctrl =>
      obtain rfl := Option.some.inj h
      dsimp only [readsAfter]
      split
      · exact .same rfl rfl
      · exact .same rfl rfl
  | sanitizeLog ctrl =>
      dsimp only [readsAfter] at h ⊢
      rcases NVMeDevice.replied_sanitizeLog_cases h with ⟨herr, rfl⟩ | ⟨herr, ⟨hres, -⟩ | ⟨hres, hpercent⟩⟩
      · rw [if_pos herr]
        exact .same rfl rfl
      · rw [herr, if_neg Bool.false_ne_true, if_neg hres]
        exact .ended
      · rw [herr, if_neg Bool.false_ne_true, if_pos hres]
        exact .log ⟨⟨ctrl, rfl⟩, herr, hres⟩ hpercent
  | sanitize ctrl type passes =>
      obtain rfl := Option.some.inj h
      dsimp only [readsAfter]
      split
      · exact .same rfl rfl
      · exact .started rfl

theorem Counted.replied (hzero : estimate ≠ 0) (hmax : estimate ≠ 0xFFFFFFFF)
    (hv : Counted estimate v.sanitizeMembers seen)
    (hreports : q.SaysInProgress → v.estimate (SanitizeLogPage.parse q.reply.payload.bytes) = estimate)
    (h : NVMeDevice.replied cfg v q.command q.reply = some v') :
    Counted estimate v'.sanitizeMembers (readsAfter seen q) := by
  have hcounting : Counting cfg v q v' seen (readsAfter seen q) := counting_of_replied h
  generalize readsAfter seen q = seen' at hcounting
  cases hcounting with
  | same htime hprogress =>
      refine ⟨fun k hk => ?_, fun k hk hne => ?_⟩
      · exact (congrArg UInt32.toNat htime).trans (hv.time k hk)
      · exact (congrArg UInt8.toNat hprogress).trans (hv.percent k hk hne)
  | started htime =>
      refine ⟨?_, ?_⟩
      · rintro _ ⟨⟩
        exact congrArg UInt32.toNat htime
      · rintro _ ⟨⟩ hne
        exact absurd rfl hne
  | ended => exact ⟨nofun, nofun⟩
  | log hsays hpercent =>
      rw [hreports hsays] at hpercent
      cases seen with
      | none => exact ⟨nofun, nofun⟩
      | some k =>
          obtain ⟨htime, hprogress⟩ := DriveView.updatePercent_counted hzero hmax (hv.time k rfl) hpercent
          refine ⟨?_, ?_⟩
          · rintro _ ⟨⟩
            exact htime
          · rintro _ ⟨⟩ _
            exact hprogress

theorem fresh_succ (m : SanitizeMembers) (seen : Option Nat) : Fresh m (seen.map Nat.succ) := by
  intro hseen
  obtain ⟨k, -, hk⟩ := Option.map_eq_some_iff.mp hseen
  cases hk

theorem fresh_replied (hv : Fresh v.sanitizeMembers seen) (h : NVMeDevice.replied cfg v q.command q.reply = some v') :
    Fresh v'.sanitizeMembers (readsAfter seen q) := by
  have hcounting : Counting cfg v q v' seen (readsAfter seen q) := counting_of_replied h
  generalize readsAfter seen q = seen' at hcounting
  cases hcounting with
  | same htime _ => exact fun hseen => htime.trans (hv hseen)
  | started htime => exact fun _ => htime
  | ended => exact nofun
  | log => exact fresh_succ _ seen

end

section
variable {cfg : Config} {estimate : UInt32} {o o' : Observed (Option Nat)} {e : Event}

theorem fresh_of_step (ho : Fresh o.proc.drive.sanitizeMembers o.seen) (h : o.Step readsAfter cfg e o') :
    Fresh o'.proc.drive.sanitizeMembers o'.seen := by
  cases Observed.effect_of_step h with
  | quiet _ hmembers hseen =>
      rw [hmembers, hseen]
      exact ho
  | callback hio hreplied hseen =>
      rw [hseen]
      exact fresh_replied ho hreplied
  | @abort q rest ctrl _ hio hc herr hres hview hseen =>
      rw [hseen]
      unfold readsAfter
      rw [hc]
      dsimp only
      rw [herr, if_neg Bool.false_ne_true, if_pos hres]
      exact fresh_succ _ o.seen

theorem counted_of_step (hzero : estimate ≠ 0) (hmax : estimate ≠ 0xFFFFFFFF)
    (ho : Counted estimate o.proc.drive.sanitizeMembers o.seen) (hok : Reports estimate o e)
    (h : o.Step readsAfter cfg e o') : Counted estimate o'.proc.drive.sanitizeMembers o'.seen := by
  cases Observed.effect_of_step h with
  | quiet _ hmembers hseen =>
      rw [hmembers, hseen]
      exact ho
  | @callback q rest _ hio hreplied hseen =>
      rw [hseen]
      refine ho.replied hzero hmax (fun hsays => hok rfl q ?_ hsays) hreplied
      rw [hio]
      rfl
  | @abort q rest ctrl _ hio hc herr hres hview hseen =>
      -- the estimate can be divided by
      have hestimate : o.proc.drive.estimate (SanitizeLogPage.parse q.reply.payload.bytes) = estimate := by
        refine hok rfl q ?_ ⟨⟨ctrl, hc⟩, herr, hres⟩
        rw [hio]
        rfl
      obtain ⟨v, -, hread⟩ :=
        @NVMeDevice.sanitizeLogRead_usable cfg (o.proc.popped rest) _ _ hzero hmax herr hres hestimate
      have hhandle : (o.proc.popped rest).handle cfg q.command q.reply =
          some { o.proc.popped rest with toDriveView := v } := by
        rw [hc]
        exact hread
      obtain ⟨hdrive, hseen⟩ := h.deliver hio hhandle
      have hreplied : NVMeDevice.replied cfg o.proc.drive.toDriveView q.command q.reply = some v :=
        NVMeDevice.handle_view hhandle
      rw [hdrive, hseen]
      exact ho.replied hzero hmax (fun _ => hestimate) hreplied

theorem counted_of_run {o₀ : Observed (Option Nat)} {es : List Event} (hzero : estimate ≠ 0)
    (hmax : estimate ≠ 0xFFFFFFFF) (ho : Counted estimate o₀.proc.drive.sanitizeMembers o₀.seen)
    (hrun : Run (guarded (Reports estimate) (Observed.Step readsAfter cfg)) o₀ es o) :
    Counted estimate o.proc.drive.sanitizeMembers o.seen :=
  hrun.guarded_invariant (fun o => Counted estimate o.proc.drive.sanitizeMembers o.seen) ho
    fun _ _ _ ho hok h => counted_of_step hzero hmax ho hok h

variable {props : NvmeInterfaces} {u : Uninitialised} {eid : UInt8} {bus : UInt32} {path : String}
  {timeout : Option Nat} {es₀ es : List Event} {o₀ : Observed (Option Nat)} {k : Nat}

theorem counted_of_started
    (hrun : Run (Observed.Step readsAfter cfg) (.start cfg none props u eid bus path timeout) es₀ o₀)
    (hstarted : o₀.seen = some 0) : Counted estimate o₀.proc.drive.sanitizeMembers o₀.seen := by
  have hfresh : Fresh o₀.proc.drive.sanitizeMembers o₀.seen := by
    refine hrun.invariant (fun o => Fresh o.proc.drive.sanitizeMembers o.seen) ?_ fun _ _ _ ho h => fresh_of_step ho h
    intro hseen
    cases hseen
  have htime := hfresh hstarted
  rw [hstarted]
  refine ⟨?_, ?_⟩
  · rintro _ ⟨⟩
    rw [htime]
    rfl
  · rintro _ ⟨⟩ hne
    exact absurd rfl hne

/-- **Percentage of the time.** After any events that end in the start of a sanitize, and any events in which every log
reports the same estimate, the log after `k` others leaves the percentage of the time, and not one below that of the log
before, if and only if nothing has wrapped around that matters. -/
theorem percent_exact_iff (hzero : estimate ≠ 0) (hmax : estimate ≠ 0xFFFFFFFF)
    (hrun₀ : Run (Observed.Step readsAfter cfg) (.start cfg none props u eid bus path timeout) es₀ o₀)
    (hstarted : o₀.seen = some 0) (hrun : Run (guarded (Reports estimate) (Observed.Step readsAfter cfg)) o₀ es o)
    (hk : o.seen = some k) (hread : guarded (Reports estimate) (Observed.Step readsAfter cfg) o e o')
    (hk' : o'.seen = some (k + 1)) :
    o'.proc.drive.props.progress.toNat = duePercent estimate.toNat (k + 1) ∧
        (k ≠ 0 → o.proc.drive.props.progress ≤ o'.proc.drive.props.progress) ↔
      Exact estimate.toNat (k + 1) := by
  have hcounted := counted_of_run hzero hmax (counted_of_started hrun₀ hstarted) hrun
  have hcounted' := counted_of_step hzero hmax hcounted hread.1 hread.2
  have hstored : o'.proc.drive.props.progress.toNat = storedPercent estimate.toNat (k + 1) :=
    hcounted'.percent (k + 1) hk' (Nat.succ_ne_zero k)
  have hpos : 0 < estimate.toNat := Nat.pos_of_ne_zero fun h => hzero (UInt32.toNat_inj.mp h)
  have hexact := storedPercent_eq_iff hpos estimate.toNat_lt (k + 1)
  rw [hstored]
  constructor
  · rintro ⟨hdue, -⟩
    exact hexact.mp hdue
  · intro h
    have hdue := hexact.mpr h
    refine ⟨hdue, fun hne => UInt8.le_iff_toNat_le.mpr ?_⟩
    calc o.proc.drive.props.progress.toNat = storedPercent estimate.toNat k := hcounted.percent k hk hne
      _ ≤ duePercent estimate.toNat k := storedPercent_le hpos k
      _ ≤ duePercent estimate.toNat (k + 1) := duePercent_mono _ (Nat.le_succ k)
      _ = o'.proc.drive.props.progress.toNat := by rw [hstored, hdue]

end

/-! ## A sanitize that is polled for ever -/

/-- A sanitize log that is in progress, with the same estimate for every method. -/
def steadyPage (estimate : UInt32) : SanitizeLogPage := ⟨2, estimate, estimate, estimate, estimate, estimate, estimate⟩

theorem estimate_steadyPage (v : DriveView) (estimate : UInt32) : v.estimate (steadyPage estimate) = estimate := by
  unfold DriveView.estimate
  cases v.eraseType with
  | overwrite | blockErase | cryptoErase => exact ite_self _

theorem res_steadyPage (estimate : UInt32) : (steadyPage estimate).res = NVME_SANITIZE_SSTAT_STATUS_IN_PROGESS := by
  change ((2 : UInt16) &&& NVME_SANITIZE_SSTAT_STATUS_MASK).toUInt8 = _
  decide

def Steady (lib : Libnvme) (estimate : UInt32) : Prop := ∀ ctrl,
  SanitizeLogPage.parse ((lib 0 (.getLogSanitize ctrl)).fill sizeofSanitizeLogPage (zeros sizeofSanitizeLogPage)) =
    steadyPage estimate

/-- A sanitize is polled, and nothing is outstanding. -/
structure Polled (k : Nat) (o : Observed (Option Nat)) : Prop where
  sanitizing : o.proc.Sanitizing
  worker : o.proc.drive.intf.worker = []
  io : o.proc.drive.intf.io = []
  seen : o.seen = some k

section
variable {cfg : Config} {lib : Libnvme} {estimate : UInt32}

theorem execute_sanitizeLog {mi : NVMeMi} {ep : Endpoint} {ctrl : Ctrl} (errno : Int) (hep : mi.nvmeEP = some ep)
    (hworker : mi.worker = [.sanitizeLog ctrl]) (hio : mi.io = []) : ∃ mi', mi.execute cfg lib errno = some mi' ∧
      (∃ ep', mi'.nvmeEP = some ep') ∧ mi'.worker = [] ∧ ∃ n, mi'.io = [⟨.sanitizeLog ctrl,
        ⟨.noError, .span ((lib 0 (.getLogSanitize ctrl)).fill sizeofSanitizeLogPage (zeros sizeofSanitizeLogPage))⟩,
        n⟩] := by
  unfold NVMeMi.execute
  rw [hep, hworker]
  refine ⟨_, rfl, ⟨_, rfl⟩, rfl, ?_⟩
  dsimp only
  rw [hio, posted_sanitizeLog]
  exact ⟨_, rfl⟩

theorem step_silent {p p' : Process} {e : Event} (he : e ≠ .deliver) (seen : Option Nat) (h : p.Step cfg e p') :
    guarded (Reports estimate) (Observed.Step readsAfter cfg) ⟨p, seen⟩ e ⟨p', seen⟩ := by
  refine ⟨fun heq => absurd heq he, ?_⟩
  have hlearnt : (⟨p, seen⟩ : Observed (Option Nat)).learnt readsAfter e = seen := by
    cases e with
    | deliver => exact absurd rfl he
    | _ => rfl
  change (p.next cfg e).map _ = _
  rw [h, hlearnt]
  rfl

theorem run_silent {p p' : Process} {es : List Event} (hes : ∀ e ∈ es, e ≠ .deliver) (seen : Option Nat)
    (hrun : Run (Process.Step cfg) p es p') :
    Run (guarded (Reports estimate) (Observed.Step readsAfter cfg)) ⟨p, seen⟩ es ⟨p', seen⟩ := by
  induction hrun with
  | nil => exact .nil
  | @snoc es p₁ p₂ e _ h ih =>
      obtain ⟨hes, he⟩ := List.forall_mem_append.mp hes
      exact (ih hes).snoc (step_silent (he e (List.mem_singleton_self e)) seen h)

theorem deliver_steady {p : Process} {ctrl : Ctrl} {data : List UInt8} {n k : Nat} (hzero : estimate ≠ 0)
    (hmax : estimate ≠ 0xFFFFFFFF) (hp : p.Sanitizing) (hworker : p.drive.intf.worker = [])
    (hio : p.drive.intf.io = [⟨.sanitizeLog ctrl, ⟨.noError, .span data⟩, n⟩])
    (hdata : SanitizeLogPage.parse data = steadyPage estimate) : ∃ o',
      guarded (Reports estimate) (Observed.Step readsAfter cfg) ⟨p, some k⟩ .deliver o' ∧ Polled (k + 1) o' := by
  obtain ⟨d, aborted⟩ := p
  obtain ⟨rfl, hpresence, hoperation, hprogress, htimer, hep⟩ := hp
  have herr : (⟨.noError, .span data⟩ : Reply).ec.isError = false := rfl
  have hres : (SanitizeLogPage.parse data).res = NVME_SANITIZE_SSTAT_STATUS_IN_PROGESS := by
    rw [hdata]
    exact res_steadyPage estimate
  have hestimate : d.estimate (SanitizeLogPage.parse data) = estimate := by
    rw [hdata]
    exact estimate_steadyPage _ estimate
  obtain ⟨v, hv, hread⟩ := @NVMeDevice.sanitizeLogRead_usable cfg (Process.popped ⟨d, false⟩ []) _ _ hzero hmax herr hres
    hestimate
  have hhandle : (Process.popped ⟨d, false⟩ []).handle cfg (.sanitizeLog ctrl) ⟨.noError, .span data⟩ =
      some { Process.popped ⟨d, false⟩ [] with toDriveView := v } := hread
  have hnext : Process.next cfg ⟨d, false⟩ .deliver =
      some ⟨{ Process.popped ⟨d, false⟩ [] with toDriveView := v }, false⟩ := by
    rw [Process.next_deliver rfl hio, hhandle]
    rfl
  have hlearnt : (⟨⟨d, false⟩, some k⟩ : Observed (Option Nat)).learnt readsAfter .deliver = some (k + 1) := by
    rw [Observed.learnt_deliver hio]
    dsimp only [readsAfter]
    rw [if_neg (by decide)]
    exact if_pos hres
  refine ⟨⟨⟨{ Process.popped ⟨d, false⟩ [] with toDriveView := v }, false⟩, some (k + 1)⟩, ⟨?_, ?_⟩, ?_⟩
  · rintro - q hq -
    change q ∈ d.intf.io.head? at hq
    rw [hio] at hq
    obtain rfl := Option.some.inj hq
    exact hestimate
  · change (Process.next cfg ⟨d, false⟩ .deliver).map _ = _
    rw [hnext, hlearnt]
    rfl
  · obtain ⟨percent, time, -, rfl⟩ := DriveView.updatePercent_eq_some hv
    exact ⟨⟨rfl, hpresence, hoperation, hprogress, htimer, hep⟩, hworker, rfl, rfl⟩

theorem polled_tick {o : Observed (Option Nat)} {k : Nat} (hlib : Steady lib estimate) (hzero : estimate ≠ 0)
    (hmax : estimate ≠ 0xFFFFFFFF) (ho : Polled k o) : ∃ mid o',
      Run (guarded (Reports estimate) (Observed.Step readsAfter cfg)) o [.expire, .tick, .execute lib 0] mid ∧
        mid.seen = some k ∧ guarded (Reports estimate) (Observed.Step readsAfter cfg) mid .deliver o' ∧
        Polled (k + 1) o' := by
  obtain ⟨p, seen⟩ := o
  obtain ⟨hp, hworker, hio, rfl⟩ := ho
  have htick := Process.run_tick cfg hp
  obtain ⟨-, hpresence, hoperation, hprogress, htimer, ep, hep⟩ := hp
  let d := p.drive.call cfg (.sanitizeLog p.drive.ctrl)
  have hep' : d.intf.nvmeEP = some ep := (NVMeMi.nvmeEP_submit _).trans hep
  have hworker' : d.intf.worker = [.sanitizeLog p.drive.ctrl] := by
    change (p.drive.intf.submit cfg _).worker = _
    rw [NVMeMi.worker_submit hep]
    dsimp only at hworker
    rw [hworker]
    rfl
  have hio' : d.intf.io = [] := by
    change (p.drive.intf.submit cfg _).io = _
    unfold NVMeMi.submit
    rw [hep]
    exact hio
  obtain ⟨mi, hexecute, hep'', hempty, n, hposted⟩ := @execute_sanitizeLog cfg lib _ _ _ 0 hep' hworker' hio'
  have hstep : Process.Step cfg ⟨d, false⟩ (.execute lib 0) ⟨{ d with intf := mi }, false⟩ := by
    change (d.intf.execute cfg lib 0).map _ = _
    rw [hexecute]
    rfl
  have hmid : Process.Sanitizing ⟨{ d with intf := mi }, false⟩ :=
    ⟨rfl, hpresence, hoperation, hprogress, htimer, hep''⟩
  obtain ⟨o', hread, ho'⟩ := @deliver_steady cfg estimate _ _ _ _ k hzero hmax hmid hempty hposted (hlib _)
  refine ⟨⟨⟨{ d with intf := mi }, false⟩, some k⟩, o', run_silent ?_ (some k) (htick.snoc hstep), rfl, hread, ho'⟩
  simp

theorem polled_ticks {o : Observed (Option Nat)} (hlib : Steady lib estimate) (hzero : estimate ≠ 0)
    (hmax : estimate ≠ 0xFFFFFFFF) (ho : Polled 0 o) (k : Nat) : ∃ es o',
      Run (guarded (Reports estimate) (Observed.Step readsAfter cfg)) o es o' ∧ Polled k o' := by
  induction k with
  | zero => exact ⟨[], o, .nil, ho⟩
  | succ k ih =>
      obtain ⟨es, o₁, hrun, ho₁⟩ := ih
      obtain ⟨mid, o₂, hrun', -, hread, ho₂⟩ := polled_tick hlib hzero hmax ho₁
      exact ⟨_, o₂, (hrun.append hrun').snoc hread, ho₂⟩

end

def steadyDrive (bytes : List UInt8) : Libnvme :=
  .ok { data := zeros 2 ++ [2, 0] ++ zeros 4 ++ (List.replicate 6 bytes).flatten }

/-- The answer does not depend on the command. -/
theorem steady_steadyDrive {bytes : List UInt8} {estimate : UInt32}
    (h : SanitizeLogPage.parse ((steadyDrive bytes 0 .readMiDataSubsys).fill sizeofSanitizeLogPage
      (zeros sizeofSanitizeLogPage)) = steadyPage estimate) : Steady (steadyDrive bytes) estimate := fun _ => h

theorem steady_hundred : Steady (steadyDrive [100, 0, 0, 0]) 100 := steady_steadyDrive (by decide +kernel)

/-- 50,000,000 seconds are 579 days. -/
theorem steady_long : Steady (steadyDrive [0x80, 0xF0, 0xFA, 0x02]) 50000000 := steady_steadyDrive (by decide +kernel)

theorem polled_sanitizingRun : ∃ o, Run (Observed.Step readsAfter .standard)
    (.start .standard none default default 10 3 "/drive" (some 5000)) Process.sanitizingRun o ∧ Polled 0 o := by
  have hfacts : (Process.sanitizingRun.foldlM (Observed.next readsAfter .standard)
      (.start .standard none default default 10 3 "/drive" (some 5000))).any (fun o =>
        o.proc.aborted = false ∧ o.proc.drive.presence = true ∧ o.proc.drive.props.operation = .sanitize ∧
          o.proc.drive.inProgress = true ∧ o.proc.drive.scanTimer = ⟨some (), []⟩ ∧
          o.proc.drive.intf.nvmeEP.isSome ∧ o.proc.drive.intf.worker = [] ∧ o.proc.drive.intf.io.length = 0 ∧
          o.seen = some 0) = true := by
    decide +kernel
  obtain ⟨o, ho, hfacts⟩ := (Option.any_eq_true _ _).mp hfacts
  obtain ⟨hrunning, hpresence, hoperation, hprogress, htimer, hep, hworker, hio, hseen⟩ := of_decide_eq_true hfacts
  exact ⟨o, Run.of_foldlM ho, ⟨hrunning, hpresence, hoperation, hprogress, htimer, Option.isSome_iff_exists.mp hep⟩,
    hworker, List.eq_nil_of_length_eq_zero hio, hseen⟩

/-- The theorem at the third log of a drive with an estimate of 100 seconds: 15 percent. -/
theorem percent_exact_iff_third : ∃ es o₀ o',
    Run (guarded (Reports 100) (Observed.Step readsAfter .standard)) o₀ es o' ∧ o₀.seen = some 0 ∧
      o'.seen = some 3 ∧ o'.proc.drive.props.progress.toNat = 15 := by
  obtain ⟨o₀, hrun₀, ho₀⟩ := polled_sanitizingRun
  obtain ⟨es, o, hrun, ho⟩ := @polled_ticks .standard _ _ _ steady_hundred (by decide) (by decide) ho₀ 2
  obtain ⟨mid, o', hrun', hk, hread, ho'⟩ := @polled_tick .standard _ _ _ _ steady_hundred (by decide) (by decide) ho
  have hmid := hrun.append hrun'
  have hiff := percent_exact_iff (by decide) (by decide) hrun₀ ho₀.seen hmid hk hread ho'.seen
  exact ⟨_, o₀, o', hmid.snoc hread, ho₀.seen, ho'.seen, (hiff.mpr (by decide)).1⟩

/-- The product of a time of 497 days and 100 wraps around: the percentage falls from 85 to 0. -/
theorem percent_falls : ∃ es₀ o₀ es o o', Run (Observed.Step readsAfter .standard)
      (.start .standard none default default 10 3 "/drive" (some 5000)) es₀ o₀ ∧ o₀.seen = some 0 ∧
    Run (guarded (Reports 50000000) (Observed.Step readsAfter .standard)) o₀ es o ∧ o.seen = some 8589934 ∧
    guarded (Reports 50000000) (Observed.Step readsAfter .standard) o .deliver o' ∧ o'.seen = some 8589935 ∧
    o.proc.drive.props.progress.toNat = 85 ∧ duePercent 50000000 8589935 = 85 ∧
    o'.proc.drive.props.progress.toNat = 0 := by
  obtain ⟨o₀, hrun₀, ho₀⟩ := polled_sanitizingRun
  obtain ⟨es, o, hrun, ho⟩ := @polled_ticks .standard _ _ _ steady_long (by decide) (by decide) ho₀ 8589934
  obtain ⟨mid, o', hrun', hk, hread, ho'⟩ := @polled_tick .standard _ _ _ _ steady_long (by decide) (by decide) ho
  have hmid := hrun.append hrun'
  have hcounted := counted_of_run (by decide) (by decide) (counted_of_started hrun₀ ho₀.seen) hmid
  have hcounted' := counted_of_step (by decide) (by decide) hcounted hread.1 hread.2
  refine ⟨_, o₀, _, mid, o', hrun₀, ho₀.seen, hmid, hk, hread, ho'.seen, ?_, by decide, ?_⟩
  · exact (hcounted.percent _ hk (by decide)).trans (by decide)
  · exact (hcounted'.percent _ ho'.seen (by decide)).trans (by decide)

end NvmeManager
