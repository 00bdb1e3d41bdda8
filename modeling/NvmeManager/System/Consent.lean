import NvmeManager.Device.Members
import NvmeManager.System.Exchange
import NvmeManager.System.Sanitize

/-!
# What a sanitize rests on

* `EraseMethod.bit`, `mem_sanitizeMethods` : the capability bit of a method;
* `Informed` : a process, with the capabilities of the latest identify that was answered without an error;
* `Informed.Knows` : the published methods are those of its bits; `knows_of_step` : every step keeps them so;
* `consented_of_run` : a sanitize is submitted and made only as the latest identify and the client have it.
-/

namespace NvmeManager

def EraseMethod.bit : EraseMethod → UInt32
  | overwrite => NVME_CTRL_SANICAP_OWS
  | blockErase => NVME_CTRL_SANICAP_BES
  | cryptoErase => NVME_CTRL_SANICAP_CES

theorem mem_sanitizeMethods {cap : UInt32} {type : EraseMethod} :
    type ∈ sanitizeMethods cap ↔ cap &&& type.bit ≠ 0 := by
  unfold sanitizeMethods
  simp only [List.mem_append, List.mem_ite_nil_right, List.mem_singleton]
  cases type with
  | overwrite => simp [EraseMethod.bit]
  | blockErase => simp [EraseMethod.bit]
  | cryptoErase => simp [EraseMethod.bit]

/-- The capabilities are known, and they name the method. -/
def Allows (sanicap : Option UInt32) (type : EraseMethod) : Prop := ∃ cap ∈ sanicap, cap &&& type.bit ≠ 0

/-! ## The published methods -/

namespace DriveView
variable {cfg : Config} {v v' : DriveView}

def methods (v : DriveView) : List EraseMethod := v.props.sanitizeCapability

theorem methods_congr (h : v'.sanitizeMembers = v.sanitizeMembers) : v'.methods = v.methods :=
  congrArg SanitizeMembers.sanitizeCapability h

theorem methods_sanitizeEnded (res : UInt8) : (v.sanitizeEnded res).methods = v.methods := by
  unfold sanitizeEnded
  split
  · rfl
  · split
    · rfl
    · rfl

theorem methods_updatePercent {endTime : UInt32} (h : v.updatePercent cfg endTime = some v') :
    v'.methods = v.methods := by
  obtain ⟨_, _, _, rfl⟩ := updatePercent_eq_some h
  rfl

end DriveView

/-- The capabilities that are known after a callback. -/
def Pending.sanicapAfter (q : Pending) (sanicap : Option UInt32) : Option UInt32 :=
  match q.command with
  | .identify _ => if q.reply.ec.isError then sanicap else some (IdCtrl.parse q.reply.payload.bytes).sanicap
  | _ => sanicap

namespace NVMeDevice
variable {cfg : Config} {d d' : NVMeDevice} {v v' : DriveView} {q : Pending} {sanicap : Option UInt32}

/-- The published methods are those that are known to be allowed. -/
def Knows (v : DriveView) (sanicap : Option UInt32) : Prop := ∀ type, type ∈ v.methods ↔ Allows sanicap type

theorem knows_of_methods (h : Knows v sanicap) (hmethods : v'.methods = v.methods) : Knows v' sanicap := by
  intro type
  rw [hmethods]
  exact h type

theorem knows_replied (h : Knows v sanicap) (hview : replied cfg v q.command q.reply = some v') :
    Knows v' (q.sanicapAfter sanicap) := by
  obtain ⟨c, r, n⟩ := q
  unfold Pending.sanicapAfter
  cases c with
  | identify ctrl =>
      obtain rfl := Option.some.inj hview
      dsimp only
      split
      · exact h
      · intro type
        change type ∈ sanitizeMethods (IdCtrl.parse r.payload.bytes).sanicap ↔ _
        rw [mem_sanitizeMethods]
        simp [Allows]
  | scan | portInformation | health | smart =>
      exact knows_of_methods h (DriveView.methods_congr (sanitizeMembers_replied (by exact trivial) hview))
  | sanitizeLog ctrl =>
      refine knows_of_methods h ?_
      rcases replied_sanitizeLog_cases hview with ⟨_, rfl⟩ | ⟨_, ⟨_, rfl⟩ | ⟨_, hpercent⟩⟩
      · rfl
      · exact DriveView.methods_sanitizeEnded _
      · exact DriveView.methods_updatePercent hpercent
  | sanitize ctrl type passes =>
      obtain rfl := Option.some.inj hview
      refine knows_of_methods h ?_
      split
      · rfl
      · rfl

end NVMeDevice

/-! ## Sanitize commands -/

namespace NVMeMi
variable {cfg : Config} {mi mi' : NVMeMi}

theorem made_execute {lib : Libnvme} {errno : Int} (h : mi.execute cfg lib errno = some mi') {m : Made}
    (hm : m ∈ mi'.made.drop mi.made.length) (hcall : m.call.isSanitize = true) :
    ∃ ctrl type passes, mi.worker.head? = some (.sanitize ctrl type passes) ∧
      m.call = sanitizeCall ctrl type passes := by
  obtain ⟨ep, c, rest, hep, hworker, rfl⟩ := execute_eq_some h
  rw [List.drop_left] at hm
  have hmakes := made_request hm
  cases c with
  | sanitize ctrl type passes =>
      obtain ⟨_, hmade, -⟩ := @executed_sanitize cfg lib errno ep ctrl type passes
      rw [hmade] at hm
      obtain rfl := List.mem_singleton.mp hm
      exact ⟨ctrl, type, passes, by rw [hworker]; rfl, rfl⟩
  | scan | identify | portInformation | health | smart | sanitizeLog =>
      rw [hmakes.isSanitize] at hcall
      cases hcall

end NVMeMi

/-! ## Runs -/

/-- A process, and the capabilities in the latest identify that was answered without an error and has been handled. -/
structure Informed where
  proc : Process
  sanicap : Option UInt32

namespace Informed
variable (cfg : Config)

def start (props : NvmeInterfaces) (u : Uninitialised) (eid : UInt8) (bus : UInt32) (path : String)
    (timeout : Option Nat) : Informed :=
  ⟨.start cfg props u eid bus path timeout, none⟩

def learnt (i : Informed) : Event → Option UInt32
  | .deliver =>
    match i.proc.drive.intf.io with
    | q :: _ => q.sanicapAfter i.sanicap
    | [] => i.sanicap
  | _ => i.sanicap

def next (i : Informed) (e : Event) : Option Informed := (i.proc.next cfg e).map (⟨·, i.learnt e⟩)

def Step (i : Informed) (e : Event) (i' : Informed) : Prop := i.next cfg e = some i'

variable {cfg} {i i' : Informed} {e : Event}

theorem Step.eq (h : i.Step cfg e i') : ∃ proc', i.proc.Step cfg e proc' ∧ i' = ⟨proc', i.learnt e⟩ := by
  obtain ⟨proc', hstep, heq⟩ := Option.map_eq_some_iff.mp h
  exact ⟨proc', hstep, heq.symm⟩

/-- The drive publishes the methods that it is known to allow. -/
def Knows (i : Informed) : Prop := NVMeDevice.Knows i.proc.drive.toDriveView i.sanicap

theorem learnt_deliver {q : Pending} {rest : List Pending} (hio : i.proc.drive.intf.io = q :: rest) :
    i.learnt .deliver = q.sanicapAfter i.sanicap := by
  unfold learnt
  rw [hio]

theorem knows_of_step (hk : i.Knows) (h : i.Step cfg e i') : i'.Knows := by
  obtain ⟨proc', hstep, rfl⟩ := h.eq
  change NVMeDevice.Knows proc'.drive.toDriveView (i.learnt e)
  cases (Process.turn_of_step hstep).2 with
  | @deliver q rest d hio hhandle =>
      have hview : NVMeDevice.replied cfg (i.proc.popped rest).toDriveView q.command q.reply = some d.toDriveView :=
        NVMeDevice.handle_view hhandle
      rw [learnt_deliver hio]
      exact NVMeDevice.knows_replied hk hview
  | @abort q rest hio hnone =>
      obtain ⟨ctrl, hc, _⟩ := NVMeDevice.handle_eq_none hnone
      have hsame : q.sanicapAfter i.sanicap = i.sanicap := by
        unfold Pending.sanicapAfter
        rw [hc]
      rw [learnt_deliver hio, hsame]
      exact hk
  | inventory =>
      refine NVMeDevice.knows_of_methods hk ?_
      unfold NVMeDevice.inventory DriveView.updateFormFactor DriveView.updateDriveAssociations DriveView.methods
      split
      · rfl
      · rfl
  | erased herase =>
      rcases (NVMeDevice.erase_eq_ok herase).2 with ⟨_, rfl⟩ | ⟨_, rfl⟩
      · exact hk
      · exact hk
  | tick =>
      refine NVMeDevice.knows_of_methods hk ?_
      rw [NVMeDevice.toDriveView_tick]
      split
      · rfl
      · rfl
  | initializeDrive | writeFault | refused | expire | execute => exact hk

theorem made_of_step {m : Made} (h : i.Step cfg e i') (hm : m ∈ i'.proc.drive.intf.made.drop i.proc.drive.intf.made.length)
    (hcall : m.call.isSanitize = true) : ∃ ctrl type passes,
      i.proc.drive.intf.worker.head? = some (.sanitize ctrl type passes) ∧ m.call = sanitizeCall ctrl type passes := by
  obtain ⟨proc', hstep, rfl⟩ := h.eq
  dsimp only at hm
  have hsame : ∀ mi : NVMeMi, mi.made = i.proc.drive.intf.made →
      m ∉ mi.made.drop i.proc.drive.intf.made.length := by
    intro mi hmi
    rw [hmi, List.drop_length]
    exact List.not_mem_nil
  cases (Process.turn_of_step hstep).2 with
  | execute hmi => exact NVMeMi.made_execute hmi hm hcall
  | initializeDrive => exact absurd hm (hsame _ (NVMeMi.made_submit _))
  | inventory => exact absurd hm (hsame _ (by rw [NVMeDevice.intf_inventory]))
  | erased herase =>
      rcases (NVMeDevice.erase_eq_ok herase).2 with ⟨_, rfl⟩ | ⟨_, rfl⟩
      · exact absurd hm (hsame _ rfl)
      · exact absurd hm (hsame _ (NVMeMi.made_submit _))
  | tick =>
      refine absurd hm (hsame _ ?_)
      unfold NVMeDevice.tick
      split
      · exact NVMeMi.made_submit _
      · split
        · exact NVMeMi.made_submit _
        · exact (NVMeMi.made_submit _).trans (NVMeMi.made_submit _)
  | @deliver q rest d hio hhandle =>
      refine absurd hm (hsame _ ?_)
      rw [(NVMeDevice.handle_follow hhandle).2]
      cases (i.proc.popped rest).follow q.command q.reply with
      | request c' => exact NVMeMi.made_submit _
      | wait | nothing => rfl
  | writeFault | refused | expire | abort => exact absurd hm (hsame _ rfl)

/-- What a step may do about sanitizes. -/
structure Consented (i : Informed) (e : Event) (i' : Informed) : Prop where
  /-- A sanitize is submitted only by an erase, with its method, which the latest identify allows. -/
  submitted : ∃ cs, i.proc.Adds e i'.proc cs ∧ ∀ c ∈ cs, c.isSanitize = true →
    ∃ passes type, e = .erase passes type ∧ c = .sanitize i.proc.drive.ctrl type passes ∧ Allows i.sanicap type
  /-- A sanitize command is made only for the oldest request of the worker, with the action of its method. -/
  made : ∀ m ∈ i'.proc.drive.intf.made.drop i.proc.drive.intf.made.length, m.call.isSanitize = true →
    ∃ ctrl type passes, i.proc.drive.intf.worker.head? = some (.sanitize ctrl type passes) ∧
      m.call = sanitizeCall ctrl type passes
  /-- An erase during a sanitize, or with a method that is not allowed, changes nothing. -/
  refused : ∀ passes type, e = .erase passes type →
    i.proc.drive.inProgress = true ∨ ¬ Allows i.sanicap type → i' = i

variable {props : NvmeInterfaces} {u : Uninitialised} {eid : UInt8} {bus : UInt32} {path : String}
  {timeout : Option Nat} {es : List Event}

/-- **Consent.** After any events from the creation of a drive that publishes no methods yet, a sanitize is submitted
only by an erase with a method whose bit is set in the latest identify, it is made with the action of that method, and
an erase that is refused changes nothing. -/
theorem consented_of_run (hprops : props.sanitizeCapability = [])
    (hrun : Run (Step cfg) (start cfg props u eid bus path timeout) es i) (h : i.Step cfg e i') : Consented i e i' := by
  have hstart : (start cfg props u eid bus path timeout).Knows := by
    have hmethods : (start cfg props u eid bus path timeout).proc.drive.methods = [] :=
      (DriveView.methods_congr (DriveView.sanitizeMembers_markFunctional true)).trans hprops
    intro type
    rw [hmethods]
    simp [Allows, start]
  have hk : i.Knows := hrun.invariant Knows hstart fun _ _ _ hk h => knows_of_step hk h
  refine ⟨?_, fun m hm hcall => made_of_step h hm hcall, ?_⟩
  · obtain ⟨proc', hstep, rfl⟩ := h.eq
    refine ⟨i.proc.asks e, Process.adds_of_turn (Process.turn_of_step hstep).2, fun c hc hsanitize => ?_⟩
    obtain ⟨passes, type, he, heq, -, hmem⟩ := Process.erase_of_asks hc hsanitize
    exact ⟨passes, type, he, heq, (hk type).mp hmem⟩
  · rintro passes type rfl hrefused
    obtain ⟨proc', hstep, rfl⟩ := h.eq
    have hproc : proc' = i.proc := by
      obtain ⟨hlive, hturn⟩ := Process.turn_of_step hstep
      cases hturn with
      | refused => rfl
      | erased herase =>
          obtain ⟨hprogress, hcases⟩ := NVMeDevice.erase_eq_ok herase
          have hnot : ¬ Allows i.sanicap type := hrefused.resolve_left (by rw [hprogress]; exact Bool.false_ne_true)
          have hmem : type ∉ i.proc.drive.methods := fun hmem => hnot ((hk type).mp hmem)
          rcases hcases with ⟨_, rfl⟩ | ⟨hmem', rfl⟩
          · rw [← hlive]
          · exact absurd hmem' hmem
    rw [hproc]
    rfl

def cryptoDrive : Libnvme := .ok { handles := [7], data := zeros 328 ++ [1] }

def identifiedRun : List Event :=
  [.initializeDrive, .execute cryptoDrive 0, .deliver, .execute cryptoDrive 0, .deliver]

/-- The theorem at an erase with the method that the drive supports, and at one with another. -/
theorem consented_of_run_identified : ∃ i i' i'',
    Run (Step .standard) (start .standard default default 10 3 "/drive" (some 5000)) identifiedRun i ∧
      i.Step .standard (.erase 0 .cryptoErase) i' ∧ .sanitize i.proc.drive.ctrl .cryptoErase 0 ∈ i'.proc.drive.intf.worker ∧
      Allows i.sanicap .cryptoErase ∧ i.Step .standard (.erase 0 .blockErase) i'' ∧ i'' = i := by
  have hfacts : (identifiedRun.foldlM (next .standard)
      (start .standard default default 10 3 "/drive" (some 5000))).any (fun i =>
        (i.next .standard (.erase 0 .cryptoErase)).any (fun i' =>
          i.proc.drive.intf.nvmeEP.isSome && i.proc.drive.intf.worker = [.portInformation] &&
            i'.proc.drive.intf.worker = [.portInformation, .sanitize i.proc.drive.ctrl .cryptoErase 0]) &&
        (i.next .standard (.erase 0 .blockErase)).isSome && i.sanicap = some 1) = true := by
    decide +kernel
  obtain ⟨i, hi, hfacts⟩ := (Option.any_eq_true _ _).mp hfacts
  rw [Bool.and_eq_true, Bool.and_eq_true, decide_eq_true_eq] at hfacts
  obtain ⟨⟨hcrypto, hblock⟩, hcap⟩ := hfacts
  obtain ⟨i', hi', hmore⟩ := (Option.any_eq_true _ _).mp hcrypto
  obtain ⟨i'', hi''⟩ := Option.isSome_iff_exists.mp hblock
  rw [Bool.and_eq_true, Bool.and_eq_true, decide_eq_true_eq, decide_eq_true_eq, Option.isSome_iff_exists] at hmore
  obtain ⟨⟨⟨ep, hep⟩, hworker⟩, hworker'⟩ := hmore
  have hrun : Run (Step .standard) (start .standard default default 10 3 "/drive" (some 5000)) identifiedRun i :=
    Run.of_foldlM hi
  refine ⟨i, i', i'', hrun, hi', ?_, ?_, hi'', ?_⟩
  · rw [hworker']
    exact List.mem_cons_of_mem _ (List.mem_singleton_self _)
  · obtain ⟨cs, hadds, hallowed⟩ := (consented_of_run rfl hrun hi').submitted
    unfold Process.Adds Process.queued at hadds
    rw [hep] at hadds
    dsimp only at hadds
    rw [hworker, hworker', List.singleton_append] at hadds
    obtain rfl := (List.cons.inj hadds).2
    obtain ⟨passes, type, _, heq, hallows⟩ := hallowed _ (List.mem_singleton_self _) rfl
    obtain ⟨_, rfl, _⟩ := Command.sanitize.inj heq
    exact hallows
  · refine (consented_of_run rfl hrun hi'').refused 0 .blockErase rfl (.inr ?_)
    rintro ⟨cap, hcap', hbit⟩
    rw [hcap] at hcap'
    obtain rfl := Option.some.inj hcap'
    exact hbit (by decide)

end Informed
end NvmeManager
