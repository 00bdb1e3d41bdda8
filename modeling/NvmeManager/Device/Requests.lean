import NvmeManager.Device.Drive
import NvmeManager.Mi.Calls
import NvmeManager.Mi.Delivery

/-!
# The requests of a drive, executed

* `Command.Makes` : the libnvme commands that can be made for a request; `made_request` : those that were are;
* `posted_ne_nil` : every request is answered;
* `scans_request` : only the scan is counted as one;
* `posted_sanitizeLog` : what a sanitize log read is answered with;
* `executed_sanitize` : a sanitize makes one command, and its one reply tells whether it was accepted;
* `CarriesPasses` : an overwrite is made with the count that was asked for, or is not made;
  `carriesPasses_iff` : so it is exactly if the count fits in a byte, or if there is no endpoint.
-/

namespace NvmeManager

/-- The libnvme commands of a request, with its handle. -/
def Command.Makes : Command → NvmeCall → Prop
  | scan, .scanEp _ => True
  | identify ctrl, .identify h .. => h = ctrl
  | identify ctrl, .identifyPartial h .. => h = ctrl
  | portInformation, .readMiDataSubsys => True
  | portInformation, .readMiDataPort _ => True
  | health, .subsystemHealthStatusPoll _ => True
  | smart ctrl, .getNsidLog h .. => h = ctrl
  | sanitizeLog ctrl, .getLogSanitize h => h = ctrl
  | sanitize ctrl .., .sanitizeNvm h .. => h = ctrl
  | _, _ => False

theorem calls_request (cfg : Config) (c : Command) : (c.request cfg).task.Calls c.Makes := by
  apply calls_task
  intro call hcall
  cases c with
  | scan | health =>
      obtain rfl := hcall
      trivial
  | identify ctrl =>
      rcases hcall with rfl | ⟨size, rfl⟩
      · rfl
      · rfl
  | portInformation =>
      rcases hcall with rfl | ⟨port, rfl⟩
      · trivial
      · trivial
  | smart ctrl =>
      cases call with
      | getNsidLog => exact hcall.1
      | _ => exact hcall.elim
  | sanitizeLog ctrl =>
      cases call with
      | getLogSanitize => exact hcall
      | _ => exact hcall.elim
  | sanitize ctrl type passes =>
      cases type with
      | overwrite | blockErase | cryptoErase =>
          obtain rfl := hcall
          rfl

section
variable {cfg : Config} {c : Command} {lib : Libnvme} {errno : Int} {ep : Endpoint}

theorem made_request {m : Made} (hm : m ∈ ((c.request cfg).executed lib errno ep).made) : c.Makes m.call :=
  (calls_request cfg c).made lib (fun _ hm => absurd hm List.not_mem_nil) m hm

theorem Command.Makes.ctrl? {call : NvmeCall} (h : c.Makes call) : ∀ ctrl ∈ call.ctrl?, ctrl ∈ c.ctrl? := by
  cases c <;> cases call <;>
    first
      | exact h.elim
      | exact fun _ hctrl => absurd hctrl (Option.not_mem_none _)
      | exact fun _ hctrl => h ▸ hctrl

theorem Command.Makes.not_scan {call : NvmeCall} (h : c.Makes call) (hc : c ≠ .scan) (force : Bool) :
    call ≠ .scanEp force := by
  rintro rfl
  cases c with
  | scan => exact hc rfl
  | _ => exact h

theorem scans_request (hc : c ≠ .scan) : ((c.request cfg).executed lib errno ep).Scans ep.scans :=
  (calls_request cfg c).scans (fun _ h force => h.not_scan hc force) lib
    ⟨rfl, fun _ hm => absurd hm List.not_mem_nil⟩

theorem logReplies_ne_nil (log : Int × List UInt8) (errno : Int) : NVMeMi.logReplies log errno ≠ [] := by
  unfold NVMeMi.logReplies
  split
  · exact List.cons_ne_nil _ _
  · simp

theorem Closure.PostsOnce.posted_ne_nil {p : Closure Unit} (hp : p.PostsOnce) (lib : Libnvme) (t : Thread) :
    (p.exec lib t).2.posted ≠ [] := by
  obtain ⟨r, hr⟩ := hp lib t
  rw [hr]
  simp

theorem posted_ne_nil (cfg : Config) (c : Command) (lib : Libnvme) (errno : Int) (ep : Endpoint) :
    ((c.request cfg).executed lib errno ep).posted ≠ [] := by
  have hlog : ∀ ctrl lid nsid lsp lsi,
      ((MiRequest.adminGetLogPage ctrl lid nsid lsp lsi).executed lib errno ep).posted ≠ [] := by
    intro ctrl lid nsid lsp lsi
    unfold MiRequest.executed MiRequest.task
    rw [NVMeMi.adminGetLogPage_posted]
    exact List.append_ne_nil_of_right_ne_nil _ (logReplies_ne_nil _ _)
  cases c with
  | scan => exact NVMeMi.postsOnce_miScanCtrl.posted_ne_nil lib _
  | identify ctrl => exact (NVMeMi.postsOnce_adminIdentify _ _ _ _ _).posted_ne_nil lib _
  | portInformation => exact NVMeMi.postsOnce_miPCIePortInformation.posted_ne_nil lib _
  | health => exact NVMeMi.postsOnce_miSubsystemHealthStatusPoll.posted_ne_nil lib _
  | smart ctrl => exact hlog ctrl .smart 0xFFFFFFFF 0 0
  | sanitizeLog ctrl => exact hlog ctrl .sanitize 0 0 0
  | sanitize ctrl type passes =>
      cases type with
      | overwrite | blockErase | cryptoErase => exact (NVMeMi.postsOnce_adminSanitize _ _ _ _).posted_ne_nil lib _

/-- A sanitize log read is answered once and without an error: its result does not reach the tests. -/
theorem posted_sanitizeLog (ctrl : Ctrl) :
    (((Command.sanitizeLog ctrl).request cfg).executed lib errno ep).posted =
      [⟨.noError, .span ((lib 0 (.getLogSanitize ctrl)).fill sizeofSanitizeLogPage (zeros sizeofSanitizeLogPage))⟩] :=
  NVMeMi.adminGetLogPage_posted ctrl .sanitize 0 0 0 lib (.start errno ep)

def sanitizeCall (ctrl : Ctrl) (type : EraseMethod) (passes : UInt16) : NvmeCall :=
  match type with
  | .overwrite => .sanitizeNvm ctrl .startOverwrite passes.toUInt8 true (~~~0x04030201)
  | .cryptoErase => .sanitizeNvm ctrl .startCryptoErase 0 true 0
  | .blockErase => .sanitizeNvm ctrl .startBlockErase 0 true 0

theorem exec_adminSanitize (ctrl : Ctrl) (sanact : Sanact) (owpass : UInt8) (owpattern : UInt32) :
    ∃ r, ((NVMeMi.adminSanitize ctrl sanact owpass owpattern).exec lib (.start errno ep)).2.made =
        [⟨.sanitizeNvm ctrl sanact owpass true owpattern, ep.scans,
          lib 0 (.sanitizeNvm ctrl sanact owpass true owpattern)⟩] ∧
      ((NVMeMi.adminSanitize ctrl sanact owpass owpattern).exec lib (.start errno ep)).2.posted = [r] ∧
      (r.ec.isError = false ↔ (lib 0 (.sanitizeNvm ctrl sanact owpass true owpattern)).rc = 0) := by
  unfold NVMeMi.adminSanitize NVMeMi.reportResult
  rw [Closure.exec_bind]
  simp only [Closure.exec_nvme, Thread.made_start, List.length_nil]
  rcases Int.lt_trichotomy (lib 0 (.sanitizeNvm ctrl sanact owpass true owpattern)).rc 0 with h | h | h
  · have herror : (ErrorCode.ofErrno
        ((lib 0 (.sanitizeNvm ctrl sanact owpass true owpattern)).errnoAfter errno)).isError = true :=
      ErrorCode.isError_ofErrno (lib.errnoAfter_ne_zero h trivial errno)
    refine ⟨⟨.ofErrno ((lib 0 (.sanitizeNvm ctrl sanact owpass true owpattern)).errnoAfter errno), .span []⟩,
      ?_, ?_, ?_⟩
    · simp [h]
    · simp [h]
    · simp [herror, Int.ne_of_lt h]
  · refine ⟨⟨.noError, .span ((lib 0 (.sanitizeNvm ctrl sanact owpass true owpattern)).fill 4 (zeros 8))⟩, ?_, ?_, ?_⟩
    · simp [h]
    · simp [h]
    · simp [h, ErrorCode.noError, ErrorCode.isError]
  · have hnonneg := Int.not_lt.mpr (Int.le_of_lt h)
    refine ⟨⟨.bad_message, .span []⟩, ?_, ?_, ?_⟩
    · simp [hnonneg, h]
    · simp [hnonneg, h]
    · simp [ErrorCode.bad_message, ErrorCode.isError, Int.ne_of_gt h]

/-- A sanitize makes one command; its one reply is an error exactly if the command was not accepted. -/
theorem executed_sanitize (ctrl : Ctrl) (type : EraseMethod) (passes : UInt16) :
    ∃ r, (((Command.sanitize ctrl type passes).request cfg).executed lib errno ep).made =
        [⟨sanitizeCall ctrl type passes, ep.scans, lib 0 (sanitizeCall ctrl type passes)⟩] ∧
      (((Command.sanitize ctrl type passes).request cfg).executed lib errno ep).posted = [r] ∧
      (r.ec.isError = false ↔ (lib 0 (sanitizeCall ctrl type passes)).rc = 0) := by
  cases type with
  | overwrite => exact exec_adminSanitize ctrl .startOverwrite passes.toUInt8 (~~~0x04030201)
  | cryptoErase => exact exec_adminSanitize ctrl .startCryptoErase 0 0
  | blockErase => exact exec_adminSanitize ctrl .startBlockErase 0 0

end

/-! ## The count of an overwrite -/

def NvmeCall.owpass? : NvmeCall → Option UInt8
  | .sanitizeNvm _ _ owpass .. => some owpass
  | _ => none

def NVMeMi.added (mi mi' : NVMeMi) : List Command := mi'.worker.drop mi.worker.length

theorem NVMeMi.added_submit {mi : NVMeMi} (cfg : Config) (c : Command) :
    mi.added (mi.submit cfg c) = if mi.nvmeEP = none then [] else [c] := by
  unfold NVMeMi.added NVMeMi.submit
  cases mi.nvmeEP with
  | none => exact List.drop_length
  | some ep => exact List.drop_left

/-- Every request that is added makes a sanitize command, with this count; none is added if `owpass` cannot hold it. -/
structure CarriesPasses (cfg : Config) (mi mi' : NVMeMi) (passes : UInt16) : Prop where
  carried : ∀ c ∈ mi.added mi', ∀ lib errno ep, ∃ m owpass, ((c.request cfg).executed lib errno ep).made = [m] ∧
    m.call.owpass? = some owpass ∧ owpass.toNat = passes.toNat
  refused : UInt8.size ≤ passes.toNat → mi.added mi' = []

namespace NVMeDevice
variable {cfg : Config} {d : NVMeDevice} {passes : UInt16}

theorem erase_accepted {type : EraseMethod} (hprogress : d.inProgress = false)
    (hcap : type ∈ d.props.sanitizeCapability) :
    d.erase cfg passes type = .ok (d.call cfg (.sanitize d.ctrl type passes)) := by
  unfold erase
  rw [hprogress, if_neg Bool.false_ne_true, if_neg (not_not_intro hcap)]

/-- The count is narrowed on its way into the command. -/
theorem executed_overwrite (passes : UInt16) (ctrl : Ctrl) (lib : Libnvme) (errno : Int) (ep : Endpoint) :
    ∃ m, (((Command.sanitize ctrl .overwrite passes).request cfg).executed lib errno ep).made = [m] ∧
      m.call.owpass? = some passes.toUInt8 := by
  obtain ⟨_, hmade, -⟩ := @executed_sanitize cfg lib errno ep ctrl .overwrite passes
  exact ⟨_, hmade, rfl⟩

/-- **Passes.** An overwrite that is accepted is made with the count that was asked for, or is not made because the field
cannot hold that count, if and only if the field can hold it, or nothing is made for want of an endpoint. -/
theorem carriesPasses_iff (hprogress : d.inProgress = false) (hcap : .overwrite ∈ d.props.sanitizeCapability) :
    ∃ d', d.erase cfg passes .overwrite = .ok d' ∧
      (CarriesPasses cfg d.intf d'.intf passes ↔ passes.toNat < UInt8.size ∨ d.intf.nvmeEP = none) := by
  refine ⟨_, erase_accepted hprogress hcap, ?_⟩
  have hadded : d.intf.added (d.call cfg (.sanitize d.ctrl .overwrite passes)).intf =
      if d.intf.nvmeEP = none then [] else [.sanitize d.ctrl .overwrite passes] := NVMeMi.added_submit cfg _
  constructor
  · rintro ⟨-, hrefused⟩
    by_contra hneither
    obtain ⟨hlarge, hep⟩ := not_or.mp hneither
    have hnothing := hrefused (Nat.le_of_not_lt hlarge)
    rw [hadded, if_neg hep] at hnothing
    cases hnothing
  · intro h
    refine ⟨fun c hc lib errno ep => ?_, fun hlarge => ?_⟩
    · rw [hadded] at hc
      split at hc
      · cases hc
      · next hep =>
          obtain rfl := List.mem_singleton.mp hc
          obtain ⟨m, hmade, howpass⟩ := executed_overwrite passes d.ctrl lib errno ep
          refine ⟨m, _, hmade, howpass, ?_⟩
          rw [UInt16.toNat_toUInt8]
          exact Nat.mod_eq_of_lt (h.resolve_right hep)
    · rw [hadded, if_pos (h.resolve_left (Nat.not_lt_of_le hlarge))]

def overwritable : NVMeDevice :=
  { first with props := { first.props with sanitizeCapability := [.overwrite] } }

/-- The theorem at 255 passes. -/
theorem carriesPasses_iff_255 : ∃ d', overwritable.erase .standard 255 .overwrite = .ok d' ∧
    CarriesPasses .standard overwritable.intf d'.intf 255 := by
  obtain ⟨d', herase, hiff⟩ := @carriesPasses_iff .standard overwritable 255 rfl (List.mem_singleton.mpr rfl)
  exact ⟨d', herase, hiff.mpr (.inl (by decide))⟩

/-- An overwrite with 257 passes is accepted and made with one. -/
theorem overwrite_257_made_with_1 : ∃ d' c, overwritable.erase .standard 257 .overwrite = .ok d' ∧
    c ∈ overwritable.intf.added d'.intf ∧
    (∀ lib errno ep, ∃ m, ((c.request .standard).executed lib errno ep).made = [m] ∧ m.call.owpass? = some 1) ∧
    ¬ CarriesPasses .standard overwritable.intf d'.intf 257 := by
  have hadded : overwritable.intf.added
      (overwritable.call .standard (.sanitize overwritable.ctrl .overwrite 257)).intf =
        [.sanitize overwritable.ctrl .overwrite 257] := NVMeMi.added_submit .standard _
  refine ⟨_, .sanitize overwritable.ctrl .overwrite 257, erase_accepted rfl (List.mem_singleton.mpr rfl), ?_, ?_, ?_⟩
  · rw [hadded]
    exact List.mem_singleton.mpr rfl
  · exact executed_overwrite 257 overwritable.ctrl
  · rintro ⟨-, hrefused⟩
    have hnothing := hrefused (by decide)
    rw [hadded] at hnothing
    cases hnothing

end NVMeDevice
end NvmeManager
