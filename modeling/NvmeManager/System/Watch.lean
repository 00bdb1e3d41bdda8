import NvmeManager.System.Polling

/-!
# Watching the sanitizes of a drive

* `Made.accepted` : a sanitize command that the drive has accepted; `Pending.Accepted`, `Pending.tellsEnd` : the
  callback of one, and the callback of a sanitize log that says how it ended;
* `Watch` : a process, with what an observer knows of its sanitizes, and whether one is running;
* `Watch.Step` : the events; while a sanitize is running the sanitize log says so (`Watch.Truthful`);
* `Watch.Outstanding` : a sanitize command was submitted, has not failed, and has not been seen to have ended;
* `Quiet` : what an event does to the requests of a drive, unless it submits or executes a sanitize.
-/

namespace NvmeManager

/-! ## Sanitize commands -/

def Command.isSanitize : Command → Bool
  | .sanitize .. => true
  | _ => false

theorem Command.Opening.isSanitize {c : Command} (h : c.Opening) : c.isSanitize = false := by
  cases c with
  | scan | identify | portInformation => rfl
  | health | smart | sanitizeLog | sanitize => exact h.elim

def NvmeCall.isSanitize : NvmeCall → Bool
  | .sanitizeNvm .. => true
  | _ => false

def Made.accepted (m : Made) : Bool := m.call.isSanitize && m.ans.rc == 0

def ended (res : UInt8) : Bool :=
  res == NVME_SANITIZE_SSTAT_STATUS_COMPLETE_SUCCESS || res == NVME_SANITIZE_SSTAT_STATUS_ND_COMPLETE_SUCCESS ||
    res == NVME_SANITIZE_SSTAT_STATUS_COMPLETED_FAILED

def Pending.Accepted (q : Pending) : Prop := q.command.isSanitize = true ∧ q.reply.ec.isError = false

instance (q : Pending) : Decidable q.Accepted := inferInstanceAs (Decidable (_ ∧ _))

/-- The callback of a sanitize log that says how the sanitize ended. -/
def Pending.tellsEnd (q : Pending) : Bool :=
  match q.command with
  | .sanitizeLog _ => !q.reply.ec.isError && ended (SanitizeLogPage.parse q.reply.payload.bytes).res
  | _ => false

/-- What is seen after the callback. -/
def Pending.seenAfter (q : Pending) (seen : Nat) : Nat := if q.tellsEnd then max seen q.madeAt else seen

/-- `inProgress` after the callback. -/
def Pending.inProgressAfter (q : Pending) (inProgress : Bool) : Bool :=
  if q.command.isSanitize then !q.reply.ec.isError else if q.tellsEnd then false else inProgress

/-! ## The watch -/

/-- A process, and what is known of the sanitizes of its drive. -/
structure Watch where
  proc : Process
  /-- How many commands had been made when the latest log was read that was seen to say how a sanitize ended. -/
  seen : Nat
  /-- A sanitize that the drive accepted is running. -/
  running : Bool

namespace Watch
variable (cfg : Config) (w : Watch)

def start (props : NvmeInterfaces) (u : Uninitialised) (eid : UInt8) (bus : UInt32) (path : String)
    (timeout : Option Nat) : Watch :=
  ⟨.start cfg props u eid bus path timeout, 0, false⟩

def mi : NVMeMi := w.proc.drive.intf

/-- A sanitize command waits for the worker, or was accepted and has not been seen to have ended. -/
def Outstanding : Prop := (∃ c ∈ w.mi.worker, c.isSanitize = true) ∨ ∃ m ∈ w.mi.made.drop w.seen, m.accepted = true

instance : Decidable w.Outstanding := inferInstanceAs (Decidable (_ ∨ _))

/-- An event of the process, or the end of the sanitize that is running. -/
inductive Event
  | process (e : NvmeManager.Event)
  | finish

/-- While a sanitize is running, a sanitize log that can be read says that it is in progress. -/
def Truthful : NvmeManager.Event → Prop
  | .execute lib _ =>
    w.running = true → ∀ ctrl, (lib 0 (.getLogSanitize ctrl)).rc = 0 →
      (SanitizeLogPage.parse ((lib 0 (.getLogSanitize ctrl)).fill sizeofSanitizeLogPage
        (zeros sizeofSanitizeLogPage))).res = NVME_SANITIZE_SSTAT_STATUS_IN_PROGESS
  | _ => True

def seenBy : NvmeManager.Event → Nat
  | .deliver =>
    match w.mi.io with
    | q :: _ => q.seenAfter w.seen
    | [] => w.seen
  | _ => w.seen

/-- An accepted command among those that an event has made. -/
def startedBy (p' : Process) : Bool := (p'.drive.intf.made.drop w.mi.made.length).any Made.accepted

inductive Step : Watch → Event → Watch → Prop
  | process {w : Watch} {e : NvmeManager.Event} {p' : Process} (truthful : w.Truthful e) (step : w.proc.Step cfg e p') :
      Step w (.process e) ⟨p', w.seenBy e, w.running || w.startedBy p'⟩
  | finish {w : Watch} : Step w .finish { w with running := false }

/-- A client asks for a sanitize while the answer to the one before is still to come: it waits for the worker, or it was
accepted and its callback waits for the loop. -/
def Overlaps : Event → Prop
  | .process (.erase ..) => (∃ c ∈ w.mi.worker, c.isSanitize = true) ∨ ∃ q ∈ w.mi.io, q.Accepted
  | _ => False

instance (e : Event) : Decidable (w.Overlaps e) :=
  match e with
  | .process (.erase ..) => inferInstanceAs (Decidable (_ ∨ _))
  | .process .initializeDrive | .process (.inventory ..) | .process (.writeFault ..) | .process .expire
  | .process .tick | .process (.execute ..) | .process .deliver | .finish => inferInstanceAs (Decidable False)

end Watch

/-! ## Quiet steps -/

/-- No sanitize command was accepted after the first `n` commands. -/
def NVMeMi.NoneSince (mi : NVMeMi) (n : Nat) : Prop := ∀ m ∈ mi.made.drop n, m.accepted = false

/-- The worker makes no sanitize command that is accepted, and the requests and callbacks that are added are none of a
sanitize; a log among them says how a sanitize ended only if none is running. -/
structure Quiet (running : Bool) (mi mi' : NVMeMi) : Prop where
  made : ∃ ms, mi'.made = mi.made ++ ms ∧ ∀ m ∈ ms, m.accepted = false
  worker : mi'.worker.countP Command.isSanitize = mi.worker.countP Command.isSanitize
  io : ∃ qs, mi'.io = mi.io ++ qs ∧ ∀ q ∈ qs, q.command.isSanitize = false ∧ (q.tellsEnd = true → running = false) ∧
    mi.made.length ≤ q.madeAt ∧ q.madeAt ≤ mi'.made.length

namespace Quiet
variable {cfg : Config} {running : Bool} {mi mi' mi'' : NVMeMi} {c : Command} {n : Nat}

theorem refl (mi : NVMeMi) : Quiet running mi mi :=
  ⟨⟨[], by simp, by simp⟩, rfl, ⟨[], by simp, by simp⟩⟩

theorem length_made (h : Quiet running mi mi') : mi.made.length ≤ mi'.made.length := by
  obtain ⟨ms, hms, _⟩ := h.made
  rw [hms, List.length_append]
  omega

theorem trans (h : Quiet running mi mi') (h' : Quiet running mi' mi'') : Quiet running mi mi'' := by
  have hle := h.length_made
  have hle' := h'.length_made
  obtain ⟨ms, hms, hnone⟩ := h.made
  obtain ⟨ms', hms', hnone'⟩ := h'.made
  obtain ⟨qs, hqs, hquiet⟩ := h.io
  obtain ⟨qs', hqs', hquiet'⟩ := h'.io
  refine ⟨⟨ms ++ ms', ?_, ?_⟩, h'.worker.trans h.worker, ⟨qs ++ qs', ?_, ?_⟩⟩
  · rw [hms', hms, List.append_assoc]
  · exact List.forall_mem_append.mpr ⟨hnone, hnone'⟩
  · rw [hqs', hqs, List.append_assoc]
  · refine List.forall_mem_append.mpr ⟨fun q hq => ?_, fun q hq => ?_⟩
    · obtain ⟨hc, hends, hlow, hhigh⟩ := hquiet q hq
      exact ⟨hc, hends, hlow, Nat.le_trans hhigh hle'⟩
    · obtain ⟨hc, hends, hlow, hhigh⟩ := hquiet' q hq
      exact ⟨hc, hends, Nat.le_trans hle hlow, hhigh⟩

theorem submit (hc : c.isSanitize = false) : Quiet running mi (mi.submit cfg c) := by
  unfold NVMeMi.submit
  split
  · refine ⟨⟨[], by simp, by simp⟩, rfl, ⟨[_], rfl, ?_⟩⟩
    intro q hq
    obtain rfl := List.mem_singleton.mp hq
    refine ⟨hc, ?_, Nat.le_refl _, Nat.le_refl _⟩
    cases c <;> exact nofun
  · refine ⟨⟨[], by simp, by simp⟩, ?_, ⟨[], by simp, by simp⟩⟩
    simp [hc]

theorem noneSince (h : Quiet running mi mi') (hnone : mi.NoneSince n) : mi'.NoneSince n := by
  obtain ⟨ms, hms, hnew⟩ := h.made
  intro m hm
  rw [hms, List.drop_append] at hm
  rcases List.mem_append.mp hm with hm | hm
  · exact hnone m hm
  · exact hnew m (List.mem_of_mem_drop hm)

theorem noneSince_of_le (h : Quiet running mi mi') (hn : mi.made.length ≤ n) : mi'.NoneSince n := by
  obtain ⟨ms, hms, hnew⟩ := h.made
  intro m hm
  rw [hms, List.drop_append, List.drop_of_length_le hn, List.nil_append] at hm
  exact hnew m (List.mem_of_mem_drop hm)

end Quiet

namespace NVMeDevice
variable {cfg : Config} {running : Bool} {d d' : NVMeDevice} {c : Command} {r : Reply}

theorem isSanitize_follow {c' : Command} (h : d.follow c r = .request c') : c'.isSanitize = false :=
  (opening_follow h).isSanitize

theorem quiet_handle (h : d.handle cfg c r = some d') : Quiet running d.intf d'.intf := by
  rw [(handle_follow h).2]
  cases hfollow : d.follow c r with
  | request c' => exact .submit (isSanitize_follow hfollow)
  | wait | nothing => exact .refl _

theorem quiet_tick (d : NVMeDevice) : Quiet running d.intf (d.tick cfg).intf := by
  unfold tick
  split
  · exact .submit rfl
  · split
    · exact .submit rfl
    · exact .trans (.submit rfl) (.submit rfl)

/-! ## `inProgress` -/

theorem inProgress_markFunctional {v : DriveView} (functional : Bool) :
    (v.markFunctional cfg functional).inProgress = v.inProgress := by
  unfold DriveView.markFunctional
  by_cases h : v.driveFunctional = functional
  · simp [h]
  · rw [if_pos h]
    cases functional
    · rfl
    · rfl

theorem inProgress_smartUpdate {v : DriveView} (smart : List UInt8) :
    (v.smartUpdate cfg smart).inProgress = v.inProgress := by
  unfold DriveView.smartUpdate
  dsimp only
  split
  · split
    · rfl
    · rfl
  · rfl

theorem inProgress_sanitizeEnded {v : DriveView} (res : UInt8) :
    (v.sanitizeEnded res).inProgress = if ended res then false else v.inProgress := by
  unfold DriveView.sanitizeEnded ended
  split_ifs <;> simp_all

theorem inProgress_updatePercent {v v' : DriveView} {endTime : UInt32} (h : v.updatePercent cfg endTime = some v') :
    v'.inProgress = v.inProgress := by
  obtain ⟨_, _, _, rfl⟩ := DriveView.updatePercent_eq_some h
  rfl

theorem inProgress_replied {v v' : DriveView} {q : Pending} (h : replied cfg v q.command q.reply = some v') :
    v'.inProgress = q.inProgressAfter v.inProgress := by
  obtain ⟨c, r, n⟩ := q
  unfold Pending.inProgressAfter Pending.tellsEnd
  cases c with
  | scan =>
      obtain rfl := Option.some.inj h
      rfl
  | identify | portInformation =>
      obtain rfl := Option.some.inj h
      split
      · rfl
      · rfl
  | health =>
      obtain rfl := Option.some.inj h
      split
      · rfl
      · exact inProgress_markFunctional _
  | smart ctrl =>
      obtain rfl := Option.some.inj h
      split
      · rfl
      · exact inProgress_smartUpdate _
  | sanitizeLog ctrl =>
      change v'.inProgress = if (!r.ec.isError && ended (SanitizeLogPage.parse r.payload.bytes).res) then false
        else v.inProgress
      unfold replied at h
      dsimp only at h
      by_cases herr : r.ec.isError = true
      · rw [if_pos herr] at h
        obtain rfl := Option.some.inj h
        simp [herr]
      · rw [if_neg herr] at h
        rw [Bool.not_eq_true] at herr
        rw [herr, Bool.not_false, Bool.true_and, ← inProgress_sanitizeEnded]
        by_cases hres : (SanitizeLogPage.parse r.payload.bytes).res = NVME_SANITIZE_SSTAT_STATUS_IN_PROGESS
        · rw [if_neg (not_not_intro hres)] at h
          rw [hres, sanitizeEnded_inProgress]
          exact inProgress_updatePercent h
        · rw [if_pos hres] at h
          obtain rfl := Option.some.inj h
          rfl
  | sanitize ctrl type passes =>
      obtain rfl := Option.some.inj h
      cases herr : r.ec.isError with
      | true => rfl
      | false => rfl

theorem inProgress_handle {q : Pending} (h : d.handle cfg q.command q.reply = some d') :
    d'.inProgress = q.inProgressAfter d.inProgress :=
  inProgress_replied (handle_view h)

theorem inProgress_tick : (d.tick cfg).inProgress = d.inProgress := by
  unfold tick
  split
  · rfl
  · split
    · rfl
    · rfl

theorem inProgress_inventory {form driveAssoc : String} : (d.inventory form driveAssoc).inProgress = d.inProgress := by
  unfold inventory
  split
  · rfl
  · rfl

/-- A log that aborts the process does not say how a sanitize ended. -/
theorem tellsEnd_of_none {q : Pending} (h : d.handle cfg q.command q.reply = none) :
    q.command.isSanitize = false ∧ q.tellsEnd = false := by
  obtain ⟨ctrl, hc, _, hres, _⟩ := handle_eq_none h
  unfold Pending.tellsEnd
  rw [hc, hres]
  exact ⟨rfl, Bool.and_false _⟩

end NVMeDevice
end NvmeManager
