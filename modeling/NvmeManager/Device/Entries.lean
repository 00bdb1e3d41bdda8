import NvmeManager.Device.Status

/-!
# The log entries of the warnings

* `DriveView.entry` : the entry of a warning; `logs_smartUpdate` : a SMART read that changes the effective warning sends
  one for each of its bits;
* `raised`, `newlyRaised` : the warnings of a byte, and those that are not in the byte before it; `perm_newlyRaised_iff` :
  they are the same if no warning persists;
* `logged_iff` : a SMART read sends the entries of the new warnings if and only if its byte is that of the read before,
  or has no warning in common with it.
-/

namespace NvmeManager

/-! ## The warnings of a byte -/

def raised (cw : UInt8) : List (UInt8 × String × String) := DriveView.smartEvents.filter fun e => cw &&& e.1 ≠ 0

def newlyRaised (old cw : UInt8) : List (UInt8 × String × String) :=
  DriveView.smartEvents.filter fun e => cw &&& e.1 ≠ 0 ∧ old &&& e.1 = 0

def NonePersists (old cw : UInt8) : Prop := ∀ e ∈ DriveView.smartEvents, cw &&& e.1 ≠ 0 → old &&& e.1 = 0

instance (old cw : UInt8) : Decidable (NonePersists old cw) :=
  inferInstanceAs (Decidable (∀ e ∈ DriveView.smartEvents, _ → _))

theorem newlyRaised_zero (cw : UInt8) : newlyRaised 0 cw = raised cw := by
  unfold newlyRaised raised
  simp

theorem newlyRaised_self (cw : UInt8) : newlyRaised cw cw = [] := by
  unfold newlyRaised
  rw [List.filter_eq_nil_iff]
  simp

theorem newlyRaised_eq_filter (old cw : UInt8) : newlyRaised old cw = (raised cw).filter fun e => old &&& e.1 = 0 := by
  unfold newlyRaised raised
  rw [List.filter_filter]
  simp [Bool.and_comm]

theorem perm_newlyRaised_iff {f : UInt8 × String × String → LogEntry} {old cw : UInt8} :
    ((raised cw).map f).Perm ((newlyRaised old cw).map f) ↔ NonePersists old cw := by
  rw [newlyRaised_eq_filter]
  refine ⟨fun hperm => ?_, fun h => ?_⟩
  · -- a filter that loses nothing in number loses nothing
    have hlength := hperm.length_eq
    rw [List.length_map, List.length_map] at hlength
    have hall := List.length_filter_eq_length_iff.mp hlength.symm
    intro e he hcw
    simpa using hall e (List.mem_filter.mpr ⟨he, by simpa using hcw⟩)
  · rw [List.filter_eq_self.mpr]
    intro e he
    obtain ⟨hmem, hcw⟩ := List.mem_filter.mp he
    simpa using h e hmem (by simpa using hcw)

namespace DriveView
variable {cfg : Config} {v v' : DriveView}

def entry (v : DriveView) (e : UInt8 × String × String) : LogEntry where
  messageID := resourceErrorDetected
  severity := .warning
  messageArgs := redfishDriveName ++ v.driveIndex ++ "," ++ e.2.1
  originOfCondition := redfishDrivePathPrefix ++ v.driveIndex
  resolution := e.2.2
  logNamespace := "StorageDevice"

theorem logs_generateRedfishEventbySmart (sw : UInt8) :
    (v.generateRedfishEventbySmart sw).logs = v.logs ++ (raised sw).map v.entry := by
  rw [List.map_eq_flatMap]
  rfl

theorem logs_smartUpdate (smart : List UInt8) : (v.smartUpdate cfg smart).logs =
    v.logs ++
      if v.effectiveWarning (byteAt smart 0) = v.smartWarning then []
      else (raised (v.effectiveWarning (byteAt smart 0))).map v.entry := by
  by_cases hsame : v.effectiveWarning (byteAt smart 0) = v.smartWarning
  · rw [smartUpdate_same hsame, if_pos hsame, List.append_nil]
  · rw [if_neg hsame]
    unfold smartUpdate
    dsimp only
    rw [if_pos hsame]
    split
    · exact logs_generateRedfishEventbySmart _
    · exact logs_generateRedfishEventbySmart _

/-- Between two states the drive has sent one entry for each warning that is in one byte and not in the byte before, and no
other. -/
def LogsNew (v v' : DriveView) (old cw : UInt8) : Prop :=
  ∃ entries, v'.logs = v.logs ++ entries ∧ entries.Perm ((newlyRaised old cw).map v.entry)

theorem logsNew_iff {entries : List LogEntry} {old cw : UInt8} (h : v'.logs = v.logs ++ entries) :
    LogsNew v v' old cw ↔ entries.Perm ((newlyRaised old cw).map v.entry) := by
  refine ⟨?_, fun hperm => ⟨entries, h, hperm⟩⟩
  rintro ⟨entries', h', hperm⟩
  rwa [List.append_cancel_left (h.symm.trans h')]

end DriveView

/-! ## Runs -/

namespace Monitor
variable {cfg : Config} {m m' : Monitor} {e : StatusEvent}

/-- The effective byte of a SMART read is that of the read before, or has no warning in common with it; the first one is
not the byte that the drive remembers from its construction. -/
def Distinct (m : Monitor) (log : List UInt8) : Prop :=
  match m.seen.warning with
  | none => m.seen.effective log ≠ 0xff
  | some old => m.seen.effective log = old ∨ NonePersists old (m.seen.effective log)

theorem logsNew_of_remembers (hr : m.Remembers) (log : List UInt8) :
    DriveView.LogsNew m.drive.toDriveView (m.drive.apply cfg (.smart log)).toDriveView (m.seen.warning.getD 0)
      (m.seen.effective log) ↔ m.Distinct log := by
  have hlogs : (m.drive.smartUpdate cfg log).logs = _ := DriveView.logs_smartUpdate log
  rw [hr.effectiveWarning, hr.smartWarning] at hlogs
  rw [NVMeDevice.view_apply_smart, DriveView.logsNew_iff hlogs]
  unfold Distinct
  generalize m.seen.effective log = cw
  cases m.seen.warning with
  | none =>
      change List.Perm (if cw = 0xff then _ else _) ((newlyRaised 0 cw).map _) ↔ cw ≠ 0xff
      rw [newlyRaised_zero]
      by_cases hsentinel : cw = 0xff
      · subst hsentinel
        rw [if_pos rfl]
        refine ⟨fun hperm => ?_, fun hne => absurd rfl hne⟩
        have hlength := hperm.length_eq
        rw [List.length_map] at hlength
        exact absurd hlength (by decide)
      · rw [if_neg hsentinel]
        exact ⟨fun _ => hsentinel, fun _ => .refl _⟩
  | some old =>
      change List.Perm (if cw = old then _ else _) ((newlyRaised old cw).map _) ↔ (cw = old ∨ NonePersists old cw)
      by_cases hsame : cw = old
      · subst hsame
        rw [if_pos rfl, newlyRaised_self]
        exact ⟨fun _ => .inl rfl, fun _ => .refl _⟩
      · rw [if_neg hsame, perm_newlyRaised_iff, or_iff_right hsame]

section
variable {props : NvmeInterfaces} {u : Uninitialised} {eid : UInt8} {bus : UInt32} {path : String}
  {timeout : Option Nat} {es : List StatusEvent}

/-- **Log entries.** After any events a SMART read sends one entry for each warning that is in its effective byte and was
not in that of the read before, and no other, if and only if the two bytes are the same or have no warning in common,
and a first byte is not `0xff`. -/
theorem logged_iff {log : List UInt8} (hrun : Run (Step cfg) (start cfg props u eid bus path timeout) es m)
    (h : m.Step cfg (.smart log) m') :
    DriveView.LogsNew m.drive.toDriveView m'.drive.toDriveView (m.seen.warning.getD 0) (m.seen.effective log) ↔
      m.Distinct log := by
  have hr : m.Remembers :=
    hrun.invariant Remembers (remembers_start props u eid bus path timeout) fun _ _ _ hr h => remembers_of_step hr h
  obtain rfl := h
  exact logsNew_of_remembers hr log

end

/-- The theorem at a drive that first reports a high temperature, and then a degraded subsystem. -/
theorem logged_iff_other :
    DriveView.LogsNew (first.drive.apply .standard (.smart [2])).toDriveView
      ((first.drive.apply .standard (.smart [2])).apply .standard (.smart [4])).toDriveView 2 4 := by
  have hrun : Run (Step .standard) first [.smart [2]]
      ⟨first.drive.apply .standard (.smart [2]), first.seen.next (.smart [2])⟩ := Run.nil.snoc rfl
  exact (logged_iff hrun rfl).mpr (.inr (by decide))

/-- The subsystem is degraded while the temperature stays high: the high temperature is logged again. -/
theorem persisting_warning_logged :
    ¬ DriveView.LogsNew (first.drive.apply .standard (.smart [2])).toDriveView
      ((first.drive.apply .standard (.smart [2])).apply .standard (.smart [6])).toDriveView 2 6 := by
  intro hnew
  have hperm := (DriveView.logsNew_iff (DriveView.logs_smartUpdate [6])).mp hnew
  exact absurd hperm.length_eq (by decide)

end Monitor
end NvmeManager
