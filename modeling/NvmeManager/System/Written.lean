import NvmeManager.Device.Members
import NvmeManager.System.Process

/-!
# Members are written before they are read

The constructor leaves five members of a drive as they are in memory: the handle of the controller, the presence, the
no-deallocate flag, the erase type and the estimated time.

* `NVMeMi.Only` : every outstanding request is of a kind; `only_submit`, `only_pop`, `only_execute`;
* `Unwritten`, `NVMeDevice.refilled` : the five members, and a drive with other values there; `inventory_refilled`, .. : the
  functions that read none of them;
* `NVMeDevice.Unscanned`, `Unidentified`, `Unerased` : the drives on which the first two, the third and the last two of
  them may not be written yet; `NVMeDevice.Alike` : other values there, and the same values in those that are;
* `alike_handle`, `alike_of_step` : every step of one drive is a step of the other one;
* `unread_of_run` : whatever the members were, the same events lead to the same drive.
-/

namespace NvmeManager

/-! ## Outstanding requests of a kind -/

namespace NVMeMi
variable {cfg : Config} {mi mi' : NVMeMi} {c : Command} {P : Command → Prop}

def Only (P : Command → Prop) (mi : NVMeMi) : Prop := ∀ c ∈ mi.outstanding, P c

theorem Only.imp {Q : Command → Prop} (h : mi.Only P) (hPQ : ∀ c, P c → Q c) : mi.Only Q :=
  fun c hc => hPQ c (h c hc)

theorem only_submit (h : mi.Only P) (hc : P c) : (mi.submit cfg c).Only P := by
  intro c' hc'
  rcases mem_outstanding_submit.mp hc' with hold | rfl
  · exact h c' hold
  · exact hc

theorem only_pop {q : Pending} {rest : List Pending} (h : mi.Only P) (hio : mi.io = q :: rest) :
    P q.command ∧ ({ mi with io := rest } : NVMeMi).Only P := by
  unfold Only outstanding at h
  rw [hio, List.map_cons, List.cons_append] at h
  exact List.forall_mem_cons.mp h

theorem only_execute {lib : Libnvme} {errno : Int} (h : mi.Only P) (hmi : mi.execute cfg lib errno = some mi') :
    mi'.Only P := by
  obtain ⟨ep, c, rest, -, hworker, rfl⟩ := execute_eq_some hmi
  have hc : P c := h c (List.mem_append_right _ (hworker ▸ List.mem_cons_self))
  intro c' hc'
  rcases List.mem_append.mp hc' with hio | hrest
  · rw [List.map_append, List.map_map] at hio
    rcases List.mem_append.mp hio with hold | hnew
    · exact h c' (List.mem_append_left _ hold)
    · obtain ⟨r, -, rfl⟩ := List.mem_map.mp hnew
      exact hc
  · exact h c' (List.mem_append_right _ (hworker ▸ List.mem_cons_of_mem _ hrest))

theorem only_follow {f : NVMeDevice.Follow} (h : mi.Only P) (hf : ∀ c, f = .request c → P c) :
    (f.intf cfg mi).Only P := by
  cases f with
  | request c => exact only_submit h (hf c rfl)
  | wait | nothing => exact h

end NVMeMi

/-! ## The members -/

/-- The members that the constructor does not write, in a drive. -/
structure Unwritten where
  ctrl : Ctrl
  presence : Bool
  nodmmas : UInt32
  eraseType : EraseMethod
  estimatedTime : UInt32

/-- Those of a drive that is created. -/
def Uninitialised.unwritten (u : Uninitialised) : Unwritten :=
  ⟨⟨0, u.handle⟩, u.presence, u.nodmmas, u.eraseType, u.estimatedTime⟩

def DriveView.refilled (v : DriveView) (w : Unwritten) : DriveView :=
  { v with nodmmas := w.nodmmas, eraseType := w.eraseType, estimatedTime := w.estimatedTime }

namespace DriveView
variable {cfg : Config} {v : DriveView} (w : Unwritten)

theorem markFunctional_refilled (functional : Bool) :
    (v.refilled w).markFunctional cfg functional = (v.markFunctional cfg functional).refilled w := by
  unfold markFunctional
  by_cases hsame : v.driveFunctional = functional
  · rw [if_neg (not_not_intro hsame), if_neg (not_not_intro (show (v.refilled w).driveFunctional = functional from hsame))]
    rfl
  · rw [if_pos hsame, if_pos (show (v.refilled w).driveFunctional ≠ functional from hsame)]
    cases functional with
    | false => rfl
    | true => rfl

theorem healthUpdate_refilled (ss : HealthStatus) : (v.refilled w).healthUpdate cfg ss = (v.healthUpdate cfg ss).refilled w := by
  unfold healthUpdate
  dsimp only
  rw [← markFunctional_refilled]
  rfl

theorem smartUpdate_refilled (smart : List UInt8) :
    (v.refilled w).smartUpdate cfg smart = (v.smartUpdate cfg smart).refilled w := by
  unfold smartUpdate
  dsimp only
  have heffective : (v.refilled w).effectiveWarning (byteAt smart 0) = v.effectiveWarning (byteAt smart 0) := rfl
  have hwarning : (v.refilled w).smartWarning = v.smartWarning := rfl
  rw [heffective, hwarning]
  by_cases hsame : v.effectiveWarning (byteAt smart 0) = v.smartWarning
  · rw [if_neg (not_not_intro hsame), if_neg (not_not_intro hsame)]
    rfl
  · rw [if_pos hsame, if_pos hsame]
    by_cases hzero : v.effectiveWarning (byteAt smart 0) = 0
    · rw [if_neg (not_not_intro hzero), if_neg (not_not_intro hzero)]
      rfl
    · rw [if_pos hzero, if_pos hzero]
      rfl

end DriveView

namespace NVMeDevice

def refilled (d : NVMeDevice) (w : Unwritten) : NVMeDevice :=
  { d with toDriveView := d.toDriveView.refilled w, ctrl := w.ctrl, presence := w.presence }

def unwritten (d : NVMeDevice) : Unwritten := ⟨d.ctrl, d.presence, d.nodmmas, d.eraseType, d.estimatedTime⟩

variable {cfg : Config} {d d' : NVMeDevice} {c : Command} {r : Reply} {w : Unwritten}

theorem create_refilled {props : NvmeInterfaces} {u u' : Uninitialised} {eid : UInt8} {bus : UInt32} {path : String}
    {timeout : Option Nat} : create cfg props u' eid bus path timeout =
      (create cfg props u eid bus path timeout).refilled u'.unwritten := by
  unfold create refilled
  dsimp only
  rw [← DriveView.markFunctional_refilled]
  rfl

theorem inventory_refilled (form driveAssoc : String) :
    (d.refilled w).inventory form driveAssoc = (d.inventory form driveAssoc).refilled w := by
  unfold inventory
  dsimp only
  split
  · rfl
  · rfl

theorem linkRead_refilled : (d.refilled w).linkRead r = (d.linkRead r).refilled w := by
  unfold linkRead
  split
  · rfl
  · rfl

theorem healthPolled_refilled : (d.refilled w).healthPolled cfg r = (d.healthPolled cfg r).refilled w := by
  unfold healthPolled
  by_cases herr : r.ec.isError = true
  · rw [if_pos herr, if_pos herr]
  · rw [if_neg herr, if_neg herr, show (d.refilled w).toDriveView = d.toDriveView.refilled w from rfl,
      DriveView.healthUpdate_refilled]
    rfl

theorem smartRead_refilled : (d.refilled w).smartRead cfg r = (d.smartRead cfg r).refilled w := by
  unfold smartRead
  by_cases herr : r.ec.isError = true
  · rw [if_pos herr, if_pos herr]
    rfl
  · rw [if_neg herr, if_neg herr, show (d.refilled w).toDriveView = d.toDriveView.refilled w from rfl,
      DriveView.smartUpdate_refilled]
    rfl

/-! ## Where they are not written -/

/-- No scan has found a controller: no handler of the timer will run, no method is published, and only scans are
outstanding. -/
structure Unscanned (d : NVMeDevice) : Prop where
  timer : d.scanTimer.handlers = []
  methods : d.props.sanitizeCapability = []
  requests : d.intf.Only (· = .scan)

def BeforeErase : Command → Prop
  | .scan | .identify _ | .portInformation | .health | .smart _ => True
  | .sanitizeLog _ | .sanitize .. => False

/-- No identify has been answered: no method is published, and no sanitize is under way. -/
structure Unidentified (d : NVMeDevice) : Prop where
  methods : d.props.sanitizeCapability = []
  progress : d.inProgress = false
  requests : d.intf.Only BeforeErase

def NoLog : Command → Prop
  | .scan | .identify _ | .portInformation | .health | .smart _ | .sanitize .. => True
  | .sanitizeLog _ => False

/-- No sanitize has been accepted. -/
structure Unerased (d : NVMeDevice) : Prop where
  progress : d.inProgress = false
  requests : d.intf.Only NoLog

/-- The same handle and the same presence. -/
def Scanned (d : NVMeDevice) (w : Unwritten) : Prop := w.ctrl = d.ctrl ∧ w.presence = d.presence

/-- The same erase type and the same estimated time. -/
def Erased (d : NVMeDevice) (w : Unwritten) : Prop := w.eraseType = d.eraseType ∧ w.estimatedTime = d.estimatedTime

/-- Other values in the members, but the same ones in those that are written. -/
structure Alike (d : NVMeDevice) (w : Unwritten) : Prop where
  scanned : d.Unscanned ∨ d.Scanned w
  identified : d.Unidentified ∨ w.nodmmas = d.nodmmas
  erased : d.Unerased ∨ d.Erased w

/-- Once all are written the drives are the same. -/
theorem eq_unwritten (hscan : d.Scanned w) (hid : w.nodmmas = d.nodmmas) (herase : d.Erased w) : w = d.unwritten := by
  obtain ⟨ctrl, presence, nodmmas, eraseType, estimatedTime⟩ := w
  obtain ⟨rfl, rfl⟩ := hscan
  obtain rfl := hid
  obtain ⟨rfl, rfl⟩ := herase
  rfl

theorem alike_unwritten : d.Alike d.unwritten := ⟨.inr ⟨rfl, rfl⟩, .inr rfl, .inr ⟨rfl, rfl⟩⟩

/-- A step that writes none of the members. -/
theorem Alike.frame (h : d.Alike w) (hsame : d'.unwritten = d.unwritten) (hscan : d.Unscanned → d'.Unscanned ∨ d.Scanned w)
    (hid : d.Unidentified → d'.Unidentified) (herase : d.Unerased → d'.Unerased) : d'.Alike w := by
  obtain ⟨hctrl, hpresence, hnodmmas, htype, htime⟩ := Unwritten.mk.inj hsame
  have hscanned : d.Scanned w → d'.Scanned w := fun h' => ⟨h'.1.trans hctrl.symm, h'.2.trans hpresence.symm⟩
  refine ⟨?_, h.identified.imp hid fun h' => h'.trans hnodmmas.symm,
    h.erased.imp herase fun h' => ⟨h'.1.trans htype.symm, h'.2.trans htime.symm⟩⟩
  rcases h.scanned with h' | h'
  · exact (hscan h').imp_right hscanned
  · exact .inr (hscanned h')

/-! ## Steps -/

theorem unscanned_call (h : d.Unscanned) : (d.call cfg .scan).Unscanned :=
  ⟨h.timer, h.methods, NVMeMi.only_submit h.requests rfl⟩

theorem unidentified_call (h : d.Unidentified) (hc : BeforeErase c) : (d.call cfg c).Unidentified :=
  ⟨h.methods, h.progress, NVMeMi.only_submit h.requests hc⟩

theorem unerased_call (h : d.Unerased) (hc : NoLog c) : (d.call cfg c).Unerased :=
  ⟨h.progress, NVMeMi.only_submit h.requests hc⟩

theorem alike_initializeDrive (h : d.Alike w) : (d.initializeDrive cfg).Alike { w with presence := false } := by
  refine ⟨?_, h.identified.imp_left fun hid => ?_, h.erased.imp_left fun herase => ?_⟩
  · rcases h.scanned with hscan | ⟨hctrl, -⟩
    · exact .inl ⟨hscan.timer, hscan.methods, NVMeMi.only_submit hscan.requests rfl⟩
    · exact .inr ⟨hctrl, rfl⟩
  · exact ⟨hid.methods, hid.progress, NVMeMi.only_submit hid.requests trivial⟩
  · exact ⟨herase.progress, NVMeMi.only_submit herase.requests trivial⟩

theorem unscanned_inventory (h : d.Unscanned) (form driveAssoc : String) :
    (d.inventory form driveAssoc).Unscanned := by
  refine ⟨?_, ?_, ?_⟩
  · rw [scanTimer_inventory]
    exact h.timer
  · have hmembers : (d.inventory form driveAssoc).sanitizeMembers = d.sanitizeMembers := sanitizeMembers_inventory _ _
    exact (congrArg SanitizeMembers.sanitizeCapability hmembers).trans h.methods
  · rw [intf_inventory]
    exact h.requests

theorem alike_inventory (h : d.Alike w) (form driveAssoc : String) : (d.inventory form driveAssoc).Alike w := by
  have hmembers : (d.inventory form driveAssoc).sanitizeMembers = d.sanitizeMembers := sanitizeMembers_inventory _ _
  obtain ⟨hprogress, -, -, -, hmethods, hnodmmas, htype, htime⟩ := SanitizeMembers.mk.inj hmembers
  have hpresence : (d.inventory form driveAssoc).presence = d.presence := by
    unfold inventory
    split <;> rfl
  refine h.frame ?_ (fun hscan => .inl (unscanned_inventory hscan form driveAssoc)) (fun hid => ?_) fun herase => ?_
  · unfold unwritten
    rw [ctrl_inventory, hpresence, hnodmmas, htype, htime]
  · refine ⟨hmethods.trans hid.methods, hprogress.trans hid.progress, ?_⟩
    rw [intf_inventory]
    exact hid.requests
  · refine ⟨hprogress.trans herase.progress, ?_⟩
    rw [intf_inventory]
    exact herase.requests

/-- The handler of the timer: no drive is polled before a scan has found a controller. -/
theorem alike_tick (h : d.Alike w) (hscan : d.Scanned w) :
    ∃ w', (d.refilled w).tick cfg = (d.tick cfg).refilled w' ∧ (d.tick cfg).Alike w' := by
  have hpresence : w.presence = d.presence := hscan.2
  unfold tick
  by_cases habsent : d.presence = false
  · have habsent' : (d.refilled w).presence = false := hpresence.trans habsent
    rw [if_pos habsent, if_pos habsent']
    exact ⟨_, rfl, alike_initializeDrive h⟩
  · have hpresent' : (d.refilled w).presence ≠ false := fun h' => habsent (hpresence.symm.trans h')
    rw [if_neg habsent, if_neg hpresent']
    by_cases hsanitize : d.props.operation = .sanitize ∧ d.inProgress = true
    · have hid : ¬ d.Unidentified := fun hid => by simp [hid.progress] at hsanitize
      have herase : ¬ d.Unerased := fun herase => by simp [herase.progress] at hsanitize
      obtain rfl := eq_unwritten hscan (h.identified.resolve_left hid) (h.erased.resolve_left herase)
      have hsanitize' : (d.refilled d.unwritten).props.operation = .sanitize ∧ (d.refilled d.unwritten).inProgress = true :=
        hsanitize
      rw [if_pos hsanitize, if_pos hsanitize']
      exact ⟨_, rfl, alike_unwritten⟩
    · have hsanitize' : ¬ ((d.refilled w).props.operation = .sanitize ∧ (d.refilled w).inProgress = true) := hsanitize
      rw [if_neg hsanitize, if_neg hsanitize']
      refine ⟨w, ?_, h.frame rfl (fun _ => .inr hscan) (fun hid => ?_) fun herase => ?_⟩
      · change ((d.refilled w).call cfg .health).call cfg (.smart w.ctrl) = _
        rw [hscan.1]
        rfl
      · exact unidentified_call (unidentified_call hid trivial) trivial
      · exact unerased_call (unerased_call herase trivial) trivial

/-! ## Callbacks -/

/-- A callback that writes none of the members, and makes the next request as `follow` has it. -/
theorem frame_handle (hc : c.Unrelated) (hnotScan : c ≠ .scan) (h : d.Alike w) (hscan : d.Scanned w)
    (hhandle : d.handle cfg c r = some d') : d'.Alike w := by
  have hidentify : ∀ ctrl, c ≠ .identify ctrl := by
    rintro ctrl rfl
    exact hc
  obtain ⟨hctrl, hpresence, -⟩ := handle_frame hhandle hnotScan hidentify
  obtain ⟨-, hintf⟩ := handle_follow hhandle
  have hmembers : d'.sanitizeMembers = d.sanitizeMembers := sanitizeMembers_replied hc (handle_view hhandle)
  obtain ⟨hprogress, -, -, -, hmethods, hnodmmas, htype, htime⟩ := SanitizeMembers.mk.inj hmembers
  have hnone : ∀ c', d.follow c r ≠ .request c' := by
    intro c' hfollow
    cases c with
    | scan => exact hnotScan rfl
    | portInformation | health | smart => cases hfollow
    | identify | sanitizeLog | sanitize => exact hc
  refine h.frame ?_ (fun _ => .inr hscan) (fun hid => ?_) fun herase => ?_
  · unfold unwritten
    rw [hctrl, hpresence, hnodmmas, htype, htime]
  · refine ⟨hmethods.trans hid.methods, hprogress.trans hid.progress, ?_⟩
    rw [hintf]
    exact NVMeMi.only_follow hid.requests fun c' hfollow => absurd hfollow (hnone c')
  · refine ⟨hprogress.trans herase.progress, ?_⟩
    rw [hintf]
    exact NVMeMi.only_follow herase.requests fun c' hfollow => absurd hfollow (hnone c')

/-- A scan writes the presence, and the handle if it has found a controller. -/
theorem alike_scanned (h : d.Alike w) :
    ∃ w', (d.refilled w).scanned cfg r = (d.scanned cfg r).refilled w' ∧ (d.scanned cfg r).Alike w' := by
  unfold scanned
  split
  · next ctrl _ _ =>
      refine ⟨{ w with ctrl, presence := true }, rfl, .inr ⟨rfl, rfl⟩, h.identified.imp_left fun hid => ?_,
        h.erased.imp_left fun herase => ?_⟩
      · exact ⟨hid.methods, hid.progress, NVMeMi.only_submit hid.requests trivial⟩
      · exact ⟨herase.progress, NVMeMi.only_submit herase.requests trivial⟩
  · refine ⟨{ w with presence := false }, rfl, ?_, h.identified.imp_left fun hid => ?_,
      h.erased.imp_left fun herase => ?_⟩
    · rcases h.scanned with hscan | ⟨hctrl, -⟩
      · exact .inl ⟨hscan.timer, hscan.methods, hscan.requests⟩
      · exact .inr ⟨hctrl, rfl⟩
    · exact ⟨hid.methods, hid.progress, hid.requests⟩
    · exact ⟨herase.progress, herase.requests⟩

/-- An identify writes the no-deallocate flag if it is answered, and is made with the handle. -/
theorem alike_identified (h : d.Alike w) (hscan : d.Scanned w) :
    ∃ w', (d.refilled w).identified cfg r = (d.identified cfg r).refilled w' ∧ (d.identified cfg r).Alike w' := by
  unfold identified
  by_cases herr : r.ec.isError = true
  · rw [if_pos herr, if_pos herr]
    by_cases hretry : d.retry < maxIdentifyCmdRetry
    · have hretry' : (d.refilled w).retry < maxIdentifyCmdRetry := hretry
      rw [if_pos hretry, if_pos hretry']
      refine ⟨w, ?_, h.frame rfl (fun _ => .inr hscan) (fun hid => ?_) fun herase => ?_⟩
      · change ({ d.refilled w with retry := d.retry + 1 } : NVMeDevice).call cfg (.identify w.ctrl) = _
        rw [hscan.1]
        rfl
      · exact ⟨hid.methods, hid.progress, NVMeMi.only_submit hid.requests trivial⟩
      · exact ⟨herase.progress, NVMeMi.only_submit herase.requests trivial⟩
    · have hretry' : ¬ (d.refilled w).retry < maxIdentifyCmdRetry := hretry
      rw [if_neg hretry, if_neg hretry']
      refine ⟨w, rfl, h.frame rfl (fun _ => .inr hscan) (fun hid => ?_) fun herase => ?_⟩
      · exact ⟨hid.methods, hid.progress, NVMeMi.only_submit hid.requests trivial⟩
      · exact ⟨herase.progress, NVMeMi.only_submit herase.requests trivial⟩
  · rw [if_neg herr, if_neg herr]
    refine ⟨{ w with nodmmas := (d.identifyUpdate r.payload.bytes).nodmmas }, rfl,
      .inr hscan, .inr rfl, h.erased.imp_left fun herase => ?_⟩
    exact ⟨herase.progress, NVMeMi.only_submit herase.requests trivial⟩

/-- An accepted sanitize writes the erase type and the estimated time. -/
theorem alike_sanitized {type : EraseMethod} (h : d.Alike w) (hscan : d.Scanned w) (hid : w.nodmmas = d.nodmmas) :
    ∃ w', (d.refilled w).sanitized type r = (d.sanitized type r).refilled w' ∧ (d.sanitized type r).Alike w' := by
  unfold sanitized
  split
  · exact ⟨w, rfl, .inr hscan, .inr hid, h.erased.imp_left fun herase => ⟨rfl, herase.requests⟩⟩
  · exact ⟨{ w with eraseType := type, estimatedTime := 0 }, rfl, .inr hscan, .inr hid, .inr ⟨rfl, rfl⟩⟩

theorem alike_handle (h : d.Alike w) (hscan : c = .scan ∨ d.Scanned w)
    (hid : BeforeErase c ∨ w.nodmmas = d.nodmmas) (herase : NoLog c ∨ d.Erased w) :
    (d.handle cfg c r = none → (d.refilled w).handle cfg c r = none) ∧
      ∀ d', d.handle cfg c r = some d' → ∃ w', (d.refilled w).handle cfg c r = some (d'.refilled w') ∧ d'.Alike w' := by
  cases c with
  | scan =>
      refine ⟨nofun, fun d' hhandle => ?_⟩
      obtain rfl := Option.some.inj hhandle
      exact (alike_scanned h).imp fun w' hw => ⟨congrArg some hw.1, hw.2⟩
  | identify ctrl =>
      refine ⟨nofun, fun d' hhandle => ?_⟩
      obtain rfl := Option.some.inj hhandle
      have hscanned : d.Scanned w := hscan.resolve_left nofun
      exact (alike_identified h hscanned).imp fun w' hw => ⟨congrArg some hw.1, hw.2⟩
  | portInformation =>
      refine ⟨nofun, fun d' hhandle => ?_⟩
      have hscanned : d.Scanned w := hscan.resolve_left nofun
      have hunrelated : Command.Unrelated .portInformation := trivial
      refine ⟨w, ?_, frame_handle hunrelated nofun h hscanned hhandle⟩
      obtain rfl := Option.some.inj hhandle
      exact congrArg some linkRead_refilled
  | health =>
      refine ⟨nofun, fun d' hhandle => ?_⟩
      have hscanned : d.Scanned w := hscan.resolve_left nofun
      have hunrelated : Command.Unrelated .health := trivial
      refine ⟨w, ?_, frame_handle hunrelated nofun h hscanned hhandle⟩
      obtain rfl := Option.some.inj hhandle
      exact congrArg some healthPolled_refilled
  | smart ctrl =>
      refine ⟨nofun, fun d' hhandle => ?_⟩
      have hscanned : d.Scanned w := hscan.resolve_left nofun
      have hunrelated : Command.Unrelated (.smart ctrl) := trivial
      refine ⟨w, ?_, frame_handle hunrelated nofun h hscanned hhandle⟩
      obtain rfl := Option.some.inj hhandle
      exact congrArg some smartRead_refilled
  | sanitizeLog ctrl =>
      obtain rfl := eq_unwritten (hscan.resolve_left nofun) (hid.resolve_left id) (herase.resolve_left id)
      exact ⟨id, fun d' hhandle => ⟨d'.unwritten, hhandle, alike_unwritten⟩⟩
  | sanitize ctrl type passes =>
      refine ⟨nofun, fun d' hhandle => ?_⟩
      obtain rfl := Option.some.inj hhandle
      have hscanned : d.Scanned w := hscan.resolve_left nofun
      exact (alike_sanitized h hscanned (hid.resolve_left id)).imp fun w' hw => ⟨congrArg some hw.1, hw.2⟩

theorem alike_popped (h : d.Alike w) {q : Pending} {rest : List Pending} (hio : d.intf.io = q :: rest) :
    ({ d with intf := { d.intf with io := rest } } : NVMeDevice).Alike w :=
  h.frame rfl (fun hscan => .inl ⟨hscan.timer, hscan.methods, (NVMeMi.only_pop hscan.requests hio).2⟩)
    (fun hid => ⟨hid.methods, hid.progress, (NVMeMi.only_pop hid.requests hio).2⟩)
    fun herase => ⟨herase.progress, (NVMeMi.only_pop herase.requests hio).2⟩

end NVMeDevice

/-! ## Runs -/

namespace Process
variable {cfg : Config} {p p' : Process} {e : Event} {w : Unwritten}

def refilled (p : Process) (w : Unwritten) : Process := ⟨p.drive.refilled w, p.aborted⟩

theorem handle_popped {d : NVMeDevice} (h : d.Alike w) {q : Pending} {rest : List Pending} (hio : d.intf.io = q :: rest) :
    ((popped ⟨d, false⟩ rest).handle cfg q.command q.reply = none →
        (popped ⟨d.refilled w, false⟩ rest).handle cfg q.command q.reply = none) ∧
      ∀ d', (popped ⟨d, false⟩ rest).handle cfg q.command q.reply = some d' →
        ∃ w', (popped ⟨d.refilled w, false⟩ rest).handle cfg q.command q.reply = some (d'.refilled w') ∧ d'.Alike w' :=
  NVMeDevice.alike_handle (NVMeDevice.alike_popped h hio)
    (h.scanned.imp_left fun hscan => (NVMeMi.only_pop hscan.requests hio).1)
    (h.identified.imp_left fun hid => (NVMeMi.only_pop hid.requests hio).1)
    (h.erased.imp_left fun herase => (NVMeMi.only_pop herase.requests hio).1)

theorem alike_of_step (h : p.drive.Alike w) (hstep : p.Step cfg e p') :
    ∃ w', (p.refilled w).Step cfg e (p'.refilled w') ∧ p'.drive.Alike w' := by
  obtain ⟨hrunning, hturn⟩ := turn_of_step hstep
  obtain ⟨d, aborted⟩ := p
  obtain rfl : aborted = false := hrunning
  cases hturn with
  | initializeDrive =>
      exact ⟨{ w with presence := false }, rfl, NVMeDevice.alike_initializeDrive h⟩
  | @inventory form driveAssoc =>
      refine ⟨w, ?_, NVMeDevice.alike_inventory h form driveAssoc⟩
      exact congrArg (fun d => some (⟨d, false⟩ : Process)) (NVMeDevice.inventory_refilled form driveAssoc)
  | writeFault =>
      exact ⟨w, rfl, h.frame rfl (fun hscan => .inl ⟨hscan.timer, hscan.methods, hscan.requests⟩)
        (fun hid => ⟨hid.methods, hid.progress, hid.requests⟩) fun herase => ⟨herase.progress, herase.requests⟩⟩
  | @refused passes type hrefused =>
      refine ⟨w, ?_, h⟩
      have hprogress : d.inProgress = true := NVMeDevice.erase_eq_error_iff.mp hrefused
      have hrefused' : (d.refilled w).erase cfg passes type = .error .NotAllowed :=
        NVMeDevice.erase_eq_error_iff.mpr hprogress
      simp [Step, next, hrefused', refilled]
  | @erased passes type d' herased =>
      obtain ⟨hprogress, ⟨hcap, rfl⟩ | ⟨hcap, rfl⟩⟩ := NVMeDevice.erase_eq_ok herased
      · refine ⟨w, ?_, h⟩
        have hignored : (d'.refilled w).erase cfg passes type = .ok (d'.refilled w) :=
          (if_neg (Bool.eq_false_iff.mp hprogress)).trans (if_pos hcap)
        simp [Step, next, hignored, refilled]
      · -- a method is published, so a scan has found a controller
        have hscan : ¬ d.Unscanned := fun hscan => List.not_mem_nil (hscan.methods ▸ hcap)
        have hid : ¬ d.Unidentified := fun hid => List.not_mem_nil (hid.methods ▸ hcap)
        obtain ⟨hctrl, -⟩ := h.scanned.resolve_left hscan
        refine ⟨w, ?_, h.frame rfl (fun h' => absurd h' hscan) (fun h' => absurd h' hid) fun herase => ?_⟩
        · have haccepted : (d.refilled w).erase cfg passes type =
              .ok ((d.call cfg (.sanitize d.ctrl type passes)).refilled w) := by
            rw [← hctrl]
            exact (if_neg (Bool.eq_false_iff.mp hprogress)).trans (if_neg (not_not_intro hcap))
          simp [Step, next, haccepted, refilled]
        · exact NVMeDevice.unerased_call herase trivial
  | @expire t ht =>
      refine ⟨w, ?_, h.frame rfl (fun hscan => ?_) (fun hid => ⟨hid.methods, hid.progress, hid.requests⟩)
        fun herase => ⟨herase.progress, herase.requests⟩⟩
      · change d.scanTimer.expire.map _ = _
        rw [ht]
        rfl
      · exact .inl ⟨(SteadyTimer.handlers_expire ht).trans hscan.timer, hscan.methods, hscan.requests⟩
  | @tick t ht =>
      have hscan : ¬ d.Unscanned := fun hscan => by
        have hhandlers := SteadyTimer.handlers_take ht
        rw [hscan.timer] at hhandlers
        cases hhandlers
      have hscanned : d.Scanned w := h.scanned.resolve_left hscan
      have htimer : ({ d with scanTimer := t } : NVMeDevice).Alike w := by
        refine h.frame rfl (fun _ => .inr hscanned) (fun hid => ?_) fun herase => ?_
        · exact ⟨hid.methods, hid.progress, hid.requests⟩
        · exact ⟨herase.progress, herase.requests⟩
      obtain ⟨w', hw, halike⟩ : ∃ w', NVMeDevice.tick cfg _ = NVMeDevice.refilled _ w' ∧ _ :=
        NVMeDevice.alike_tick htimer hscanned
      refine ⟨w', ?_, halike⟩
      change d.scanTimer.take?.map _ = _
      rw [ht]
      exact congrArg (fun d => some (⟨d, false⟩ : Process)) hw
  | @execute lib errno mi hmi =>
      refine ⟨w, ?_, h.frame rfl (fun hscan => ?_) (fun hid => ?_) fun herase => ?_⟩
      · change (d.intf.execute cfg lib errno).map _ = _
        rw [hmi]
        rfl
      · exact .inl ⟨hscan.timer, hscan.methods, NVMeMi.only_execute hscan.requests hmi⟩
      · exact ⟨hid.methods, hid.progress, NVMeMi.only_execute hid.requests hmi⟩
      · exact ⟨herase.progress, NVMeMi.only_execute herase.requests hmi⟩
  | @deliver q rest d' hio hhandle =>
      obtain ⟨w', hw, halike⟩ := (handle_popped h hio).2 d' hhandle
      refine ⟨w', ?_, halike⟩
      have hio' : (⟨d.refilled w, false⟩ : Process).drive.intf.io = q :: rest := hio
      exact (next_deliver rfl hio').trans (congrArg (Option.elim · _ _) hw)
  | @abort q rest hio hhandle =>
      have hnone := (handle_popped h hio).1 hhandle
      have hio' : (⟨d.refilled w, false⟩ : Process).drive.intf.io = q :: rest := hio
      refine ⟨w, (next_deliver rfl hio').trans (congrArg (Option.elim · _ _) hnone), ?_⟩
      exact NVMeDevice.alike_popped h hio

section
variable {props : NvmeInterfaces} {u : Uninitialised} {eid : UInt8} {bus : UInt32} {path : String}
  {timeout : Option Nat} {es : List Event}

theorem alike_start (hmethods : props.sanitizeCapability = []) (u' : Uninitialised) :
    (start cfg props u eid bus path timeout).drive.Alike u'.unwritten := by
  have hmembers : (start cfg props u eid bus path timeout).drive.sanitizeMembers.sanitizeCapability = [] ∧
      (start cfg props u eid bus path timeout).drive.sanitizeMembers.inProgress = false := by
    have hcreated : (start cfg props u eid bus path timeout).drive.sanitizeMembers = _ :=
      DriveView.sanitizeMembers_markFunctional true
    rw [hcreated]
    exact ⟨hmethods, rfl⟩
  obtain ⟨hcap, hprogress⟩ := hmembers
  exact ⟨.inl ⟨rfl, hcap, nofun⟩, .inl ⟨hcap, hprogress, nofun⟩, .inl ⟨hprogress, nofun⟩⟩

/-- **Uninitialised members.** Whatever the constructor finds in the members that it does not write, the same events
lead to the same drive, but for those of the members that are still not written. -/
theorem unread_of_run (hmethods : props.sanitizeCapability = [])
    (hrun : Run (Step cfg) (start cfg props u eid bus path timeout) es p) (u' : Uninitialised) :
    ∃ w, Run (Step cfg) (start cfg props u' eid bus path timeout) es (p.refilled w) ∧ p.drive.Alike w := by
  have hstart : start cfg props u' eid bus path timeout = (start cfg props u eid bus path timeout).refilled u'.unwritten :=
    congrArg (Process.mk · false) NVMeDevice.create_refilled
  rw [hstart]
  obtain ⟨t, hrun', w, rfl, halike⟩ := hrun.lockstep (fun p t => ∃ w, t = p.refilled w ∧ p.drive.Alike w)
    ⟨u'.unwritten, rfl, alike_start hmethods u'⟩ fun s e s' t hst hstep => by
      obtain ⟨w, rfl, halike⟩ := hst
      obtain ⟨w', hstep', halike'⟩ := alike_of_step halike hstep
      exact ⟨s'.refilled w', hstep', w', rfl, halike'⟩
  exact ⟨w, hrun', halike⟩

end

def otherMemory : Uninitialised := ⟨99, true, 0x80000000, .overwrite, 1000⟩

/-- The theorem at a drive that is scanned. -/
theorem unread_of_run_scanned : ∃ p w,
    Run (Step .standard) first [.initializeDrive, .execute (.ok { handles := [7] }) 0, .deliver] p ∧
      p.drive.ctrl = ⟨1, 7⟩ ∧
      Run (Step .standard) (start .standard default otherMemory 10 3 first.drive.objPath (some 5000))
        [.initializeDrive, .execute (.ok { handles := [7] }) 0, .deliver] (p.refilled w) ∧
      p.drive.Alike w := by
  have hrun : Run (Step .standard) first
      [.initializeDrive, .execute (.ok { handles := [7] }) 0, .deliver] _ := Run.of_foldlM rfl
  obtain ⟨w, hrun', halike⟩ := unread_of_run rfl hrun otherMemory
  exact ⟨_, w, hrun, rfl, hrun', halike⟩

end Process
end NvmeManager
