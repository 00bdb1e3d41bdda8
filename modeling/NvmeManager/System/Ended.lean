import NvmeManager.System.Observed

/-!
# The end of a sanitize

A drive finds out from the log that its sanitize has ended. The callback of the log tests for the statuses of a sanitize
that was completed or failed, and then for any status but that of a sanitize in progress.

* `Stage` : what an observer of the callbacks knows of the latest sanitize;
* `SanitizeMembers.Follows` : the drive shows a sanitize that is running as such, and one that has ended as completed or
  failed;
* `Strays` : a sanitize that is running ends for the observer alone, or for the drive alone; or the drive is not there for
  the poll that follows its end;
* `followed_of_run` : without these a drive follows the stages, polls its health after the end of a sanitize and takes the
  next one; `lost_of_strays` : with one it does not.
-/

namespace NvmeManager

/-- The latest sanitize. -/
inductive Stage
  /-- None has been started, or the next command has failed since it ended. -/
  | none
  /-- It has been started, and no log has said otherwise since. -/
  | running
  | ended
  deriving DecidableEq

def Pending.res (q : Pending) : UInt8 := (SanitizeLogPage.parse q.reply.payload.bytes).res

/-- The statuses that the callback takes for the end of a sanitize. -/
def endStatuses : List UInt8 :=
  [NVME_SANITIZE_SSTAT_STATUS_COMPLETE_SUCCESS, NVME_SANITIZE_SSTAT_STATUS_ND_COMPLETE_SUCCESS,
    NVME_SANITIZE_SSTAT_STATUS_COMPLETED_FAILED]

namespace Stage

def see (s : Stage) (q : Pending) : Stage :=
  match q.command with
  | .sanitize .. =>
    if q.reply.ec.isError = false then running
    else if s = running then running else none
  | .sanitizeLog _ =>
    if s = running ∧ q.reply.ec.isError = false ∧ q.res ≠ NVME_SANITIZE_SSTAT_STATUS_IN_PROGESS then ended else s
  | _ => s

end Stage

/-- What a drive shows of a sanitize at each stage. -/
structure SanitizeMembers.Follows (m : SanitizeMembers) (s : Stage) : Prop where
  running : s = .running → m.inProgress = true ∧ m.status = .inProgress
  ended : s = .ended → m.inProgress = false ∧ (m.status = .completed ∨ m.status = .failed)

/-- A callback of a running sanitize that goes astray: the next command has failed, or the log has a status that is neither
that of a sanitize in progress nor one that the callback takes for the end. -/
def Pending.Strays (q : Pending) : Prop :=
  match q.command with
  | .sanitize .. => q.reply.ec.isError = true
  | .sanitizeLog _ =>
    q.reply.ec.isError = false ∧ q.res ≠ NVME_SANITIZE_SSTAT_STATUS_IN_PROGESS ∧ q.res ∉ endStatuses
  | _ => False

instance (q : Pending) : Decidable q.Strays := by
  unfold Pending.Strays
  split
  · infer_instance
  · infer_instance
  · infer_instance

namespace Stage
variable {cfg : Config} {s : Stage} {v v' : DriveView} {q : Pending}

theorem see_unrelated (hc : q.command.Unrelated) : s.see q = s := by
  unfold see
  cases hq : q.command with
  | sanitizeLog | sanitize =>
      rw [hq] at hc
      exact hc.elim
  | scan | identify | portInformation | health | smart => rfl

theorem follows_none {m : SanitizeMembers} : m.Follows none := ⟨nofun, nofun⟩

theorem sanitizeEnded_ends {res : UInt8} (h : res ∈ endStatuses) :
    (v.sanitizeEnded res).inProgress = false ∧
      ((v.sanitizeEnded res).props.status = .completed ∨ (v.sanitizeEnded res).props.status = .failed) := by
  unfold DriveView.sanitizeEnded
  rcases List.mem_cons.mp h with rfl | h
  · exact ⟨rfl, .inl rfl⟩
  · rcases List.mem_cons.mp h with rfl | h
    · exact ⟨rfl, .inl rfl⟩
    · obtain rfl := List.mem_singleton.mp h
      exact ⟨rfl, .inr rfl⟩

theorem sanitizeEnded_of_not_mem {res : UInt8} (h : res ∉ endStatuses) : v.sanitizeEnded res = v := by
  unfold DriveView.sanitizeEnded
  rw [if_neg, if_neg]
  · rintro rfl
    exact h (by decide)
  · rintro (rfl | rfl)
    · exact h (by decide)
    · exact h (by decide)

theorem follows_replied (hf : v.sanitizeMembers.Follows s) (hok : s = running → ¬ q.Strays)
    (h : NVMeDevice.replied cfg v q.command q.reply = some v') : v'.sanitizeMembers.Follows (s.see q) := by
  by_cases hc : q.command.Unrelated
  · rw [see_unrelated hc, NVMeDevice.sanitizeMembers_replied hc h]
    exact hf
  unfold Pending.Strays at hok
  unfold see
  cases hq : q.command with
  | scan | portInformation | health | smart =>
      rw [hq] at hc
      exact absurd trivial hc
  | identify ctrl =>
      rw [hq] at h
      obtain rfl := Option.some.inj h
      dsimp only
      split
      · exact hf
      · exact ⟨hf.running, hf.ended⟩
  | sanitizeLog ctrl =>
      rw [hq] at h hok
      dsimp only at hok ⊢
      rcases NVMeDevice.replied_sanitizeLog_cases h with ⟨herr, rfl⟩ | ⟨herr, ⟨hres, rfl⟩ | ⟨hres, hpercent⟩⟩
      · rw [if_neg fun hboth => Bool.false_ne_true (hboth.2.1.symm.trans herr)]
        exact hf
      · change (v.sanitizeEnded q.res).sanitizeMembers.Follows _
        by_cases hends : q.res ∈ endStatuses
        · refine ⟨fun hs => ?_, fun _ => sanitizeEnded_ends hends⟩
          split at hs
          · cases hs
          · next hnot => exact absurd ⟨hs, herr, hres⟩ hnot
        · rw [if_neg fun hboth => hok hboth.1 ⟨herr, hres, hends⟩, sanitizeEnded_of_not_mem hends]
          exact hf
      · rw [if_neg fun hboth => hboth.2.2 hres]
        obtain ⟨_, _, _, rfl⟩ := DriveView.updatePercent_eq_some hpercent
        exact ⟨hf.running, hf.ended⟩
  | sanitize ctrl type passes =>
      rw [hq] at h hok
      dsimp only at hok ⊢
      obtain rfl := Option.some.inj h
      cases herr : q.reply.ec.isError with
      | true =>
          have hnot : s ≠ running := fun hs => hok hs herr
          rw [if_pos rfl, if_neg (by decide), if_neg hnot]
          exact follows_none
      | false => exact ⟨fun _ => ⟨rfl, rfl⟩, nofun⟩

end Stage

/-! ## Runs -/

namespace Observed
variable {cfg : Config} {o o' : Observed Stage} {e : Event}

/-- A callback goes astray while a sanitize is running, or the drive is not there for a poll after its end. -/
def Strays (o : Observed Stage) : Event → Prop
  | .deliver => o.seen = .running ∧ ∃ q ∈ o.proc.drive.intf.io.head?, q.Strays
  | .tick => o.seen = .ended ∧ o.proc.drive.presence = false
  | _ => False

instance (o : Observed Stage) (e : Event) : Decidable (o.Strays e) := by
  unfold Strays
  split
  · infer_instance
  · infer_instance
  · infer_instance

/-- The drive shows the sanitize as it is. -/
def Follows (o : Observed Stage) : Prop := o.proc.drive.sanitizeMembers.Follows o.seen

theorem follows_of_step (hf : o.Follows) (hok : ¬ o.Strays e) (h : o.Step Stage.see cfg e o') : o'.Follows := by
  unfold Follows
  cases effect_of_step h with
  | quiet _ hmembers hseen =>
      rw [hmembers, hseen]
      exact hf
  | callback hio hreplied hseen =>
      rw [hseen]
      refine Stage.follows_replied hf (fun hs hq => hok ⟨hs, _, ?_, hq⟩) hreplied
      rw [hio]
      rfl
  | @abort q rest ctrl _ hio hc herr hres hview hseen =>
      have hsee : o.seen.see q = o.seen := by
        unfold Stage.see
        rw [hc]
        exact if_neg fun hboth => hboth.2.2 hres
      rw [hseen, hview, hsee]
      exact hf

/-- What a drive does at each stage of a sanitize. -/
structure Followed (cfg : Config) (o : Observed Stage) : Prop where
  running : o.seen = .running → o.proc.drive.inProgress = true ∧ o.proc.drive.props.status = .inProgress
  ended : o.seen = .ended → o.proc.drive.inProgress = false ∧
    (o.proc.drive.props.status = .completed ∨ o.proc.drive.props.status = .failed)
  /-- A poll tick asks for the health and the SMART log, and for nothing else. -/
  polls : o.seen = .ended → ∀ o', ¬ o.Strays .tick → o.Step Stage.see cfg .tick o' →
    o'.proc.drive.intf = (o.proc.drive.intf.submit cfg .health).submit cfg (.smart o.proc.drive.ctrl)
  accepts : o.seen = .ended → ∀ passes type, o.proc.drive.erase cfg passes type ≠ .error .NotAllowed

theorem followed_of_follows (hf : o.Follows) : o.Followed cfg := by
  refine ⟨hf.running, hf.ended, fun hs o' hok h => ?_, fun hs passes type hrefused => ?_⟩
  · have hprogress : o.proc.drive.inProgress = false := (hf.ended hs).1
    obtain ⟨proc', hstep, rfl⟩ := h.eq
    cases (Process.turn_of_step hstep).2 with
    | tick ht =>
        have hpresence : o.proc.drive.presence ≠ false := fun hpresence => hok ⟨hs, hpresence⟩
        unfold NVMeDevice.tick
        rw [if_neg hpresence, if_neg fun hboth => Bool.false_ne_true (hprogress.symm.trans hboth.2)]
        rfl
  · have hprogress : o.proc.drive.inProgress = false := (hf.ended hs).1
    rw [NVMeDevice.erase_eq_error_iff, hprogress] at hrefused
    cases hrefused

section
variable {props : NvmeInterfaces} {u : Uninitialised} {eid : UInt8} {bus : UInt32} {path : String}
  {timeout : Option Nat} {es : List Event}

theorem follows_of_run
    (hrun : Run (guarded (fun o e => ¬ Strays o e) (Step Stage.see cfg)) (start cfg .none props u eid bus path timeout) es o) :
    o.Follows := by
  refine hrun.guarded_invariant Follows ?_ fun _ _ _ hf hok h => follows_of_step hf hok h
  exact Stage.follows_none

/-- **End of a sanitize.** In a run without a step that strays, a drive shows a sanitize that is running as one in
progress, and after the first log that says otherwise it shows that one as completed or failed, polls the health, and
accepts the next. -/
theorem followed_of_run
    (hrun : Run (guarded (fun o e => ¬ Strays o e) (Step Stage.see cfg)) (start cfg .none props u eid bus path timeout) es o) :
    o.Followed cfg :=
  followed_of_follows (follows_of_run hrun)

end

/-- A step that strays ends the agreement, or initializes the drive where a poll is due. -/
theorem lost_of_strays (hf : o.Follows) (hstrays : o.Strays e) (h : o.Step Stage.see cfg e o') :
    ¬ o'.Follows ∨ o'.proc.drive.intf = o.proc.drive.intf.submit cfg .scan := by
  cases e with
  | deliver =>
      obtain ⟨hrunning, q, hq, hstray⟩ := hstrays
      have hprogress : o.proc.drive.inProgress = true := (hf.running hrunning).1
      unfold Pending.Strays at hstray
      refine .inl fun hf' => ?_
      cases effect_of_step h with
      | quiet hne => exact hne rfl
      | callback hio hreplied hseen =>
          rw [hio] at hq
          obtain rfl := Option.some.inj hq
          unfold Stage.see at hseen
          split at hstray
          · next hc =>
              -- the drive forgets the sanitize that is running
              rw [hc] at hreplied hseen
              dsimp only at hseen
              rw [hstray, if_neg (by decide), if_pos hrunning] at hseen
              have hprogress' := (hf'.running hseen).1
              obtain heq := Option.some.inj hreplied
              rw [if_pos hstray] at heq
              rw [← heq] at hprogress'
              cases hprogress'
          · next hc =>
              -- the drive does not take note of the end
              obtain ⟨herr, hres, hends⟩ := hstray
              rw [hc] at hreplied hseen
              dsimp only at hseen
              rw [if_pos ⟨hrunning, herr, hres⟩] at hseen
              have hprogress' := (hf'.ended hseen).1
              rcases NVMeDevice.replied_sanitizeLog_cases hreplied with ⟨herr', _⟩ | ⟨_, ⟨_, hv⟩ | ⟨hres', _⟩⟩
              · rw [herr] at herr'
                cases herr'
              · have hsame : o'.proc.drive.toDriveView = o.proc.drive.toDriveView :=
                  hv.trans (Stage.sanitizeEnded_of_not_mem hends)
                rw [hsame] at hprogress'
                exact Bool.false_ne_true (hprogress'.symm.trans hprogress)
              · exact hres hres'
          · exact hstray
      | abort hio hc herr hres hview hseen =>
          rw [hio] at hq
          obtain rfl := Option.some.inj hq
          rw [hc] at hstray
          exact hstray.2.1 hres
  | tick =>
      obtain ⟨_, hpresence⟩ := hstrays
      obtain ⟨proc', hstep, rfl⟩ := h.eq
      cases (Process.turn_of_step hstep).2 with
      | tick ht =>
          right
          unfold NVMeDevice.tick
          rw [if_pos hpresence]
          rfl
  | initializeDrive | inventory | writeFault | erase | expire | execute => exact hstrays.elim

/-! ## A drive that is erased -/

/-- A drive with one controller, which supports the crypto erase, and whose sanitize log has this status. -/
def erasedDrive (sstat : UInt8) : Libnvme := .writing fun _ c =>
  match c with
  | .getLogSanitize _ => { data := [0, 0, sstat] }
  | _ => { handles := [7], data := zeros 328 ++ [1] }

def erasedRun (sstat : UInt8) : List Event :=
  let execute : Event := .execute (erasedDrive sstat) 0
  [.initializeDrive, execute, .deliver, execute, .deliver, execute, .deliver, .erase 0 .cryptoErase, execute, .deliver,
    .expire, .tick, execute, .deliver]

/-- The theorem at a sanitize that was completed. -/
theorem followed_of_run_completed : ∃ o,
    Run (guarded (fun o e => ¬ Strays o e) (Step Stage.see .standard))
      (start .standard .none default default 10 3 "/drive" (some 5000)) (erasedRun 1) o ∧
      o.seen = .ended ∧ o.proc.drive.erase .standard 0 .cryptoErase ≠ .error .NotAllowed := by
  have hfacts : ((erasedRun 1).foldlM
      (fun (o : Observed Stage) e => if ¬ o.Strays e then o.next Stage.see .standard e else none)
      (start .standard .none default default 10 3 "/drive" (some 5000))).any (fun o => o.seen = .ended) = true := by
    decide +kernel
  obtain ⟨o, ho, hended⟩ := (Option.any_eq_true _ _).mp hfacts
  rw [decide_eq_true_eq] at hended
  have hrun : Run (guarded (fun o e => ¬ Strays o e) (Step Stage.see .standard))
      (start .standard .none default default 10 3 "/drive" (some 5000)) (erasedRun 1) o := Run.guarded_of_foldlM ho
  exact ⟨o, hrun, hended, (followed_of_run hrun).accepts hended 0 .cryptoErase⟩

/-- The log says that there has been no sanitize: the drive still shows one in progress, and refuses the next. -/
theorem never_sanitized_in_progress : ∃ o,
    Run (Step Stage.see .standard) (start .standard .none default default 10 3 "/drive" (some 5000)) (erasedRun 0) o ∧
      o.seen = .ended ∧ o.proc.drive.inProgress = true ∧ o.proc.drive.props.status = .inProgress ∧
      o.proc.drive.erase .standard 0 .cryptoErase = .error .NotAllowed := by
  have hfacts : ((erasedRun 0).foldlM (next Stage.see .standard)
      (start .standard .none default default 10 3 "/drive" (some 5000))).any (fun o =>
        o.seen = .ended && o.proc.drive.inProgress && o.proc.drive.props.status = .inProgress) = true := by
    decide +kernel
  obtain ⟨o, ho, hfacts⟩ := (Option.any_eq_true _ _).mp hfacts
  rw [Bool.and_eq_true, Bool.and_eq_true, decide_eq_true_eq, decide_eq_true_eq] at hfacts
  obtain ⟨⟨hended, hprogress⟩, hstatus⟩ := hfacts
  exact ⟨o, Run.of_foldlM ho, hended, hprogress, hstatus, NVMeDevice.erase_eq_error_iff.mpr hprogress⟩

end Observed
end NvmeManager
