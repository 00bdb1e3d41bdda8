import NvmeManager.Device.Sources
import NvmeManager.System.Observed

/-!
# Where the published inventory comes from

* `NVMeMi.Kept`, `intf_of_turn` : what every request, every execution and every callback keeps of an interface holds in
  every run;
* `NVMeMi.Answered` : what the callbacks that wait are told has been said by the drive;
* `Inventory` : the properties that show what a drive is and how it is doing; `Told` : the latest answers of each kind;
* `Told.inventory` : the properties as the latest answers have them; `Told.Said` : the answers are of successful commands;
* `published_of_run` : the drive publishes the inventory of the latest answers, and the drive has said them.
-/

namespace NvmeManager

/-! ## The interface of a drive -/

namespace NVMeMi
variable {cfg : Config} {mi mi' : NVMeMi}

/-- What may happen to an interface keeps a property. -/
structure Kept (cfg : Config) (P : NVMeMi → Prop) : Prop where
  submit : ∀ {mi : NVMeMi}, P mi → ∀ c, P (mi.submit cfg c)
  execute : ∀ {mi mi' : NVMeMi} {lib : Libnvme} {errno : Int}, P mi → mi.execute cfg lib errno = some mi' → P mi'
  pop : ∀ {mi : NVMeMi} {q : Pending} {rest : List Pending}, P mi → mi.io = q :: rest → P { mi with io := rest }

theorem Kept.follow {P : NVMeMi → Prop} (h : Kept cfg P) {f : NVMeDevice.Follow} (hP : P mi) : P (f.intf cfg mi) := by
  cases f with
  | request c => exact h.submit hP c
  | wait | nothing => exact hP

/-- Every callback that waits without an error is told what the drive has said. -/
def Answered (mi : NVMeMi) : Prop := ∀ q ∈ mi.io, q.reply.ec.isError = false → Tells mi.made q.command q.reply

theorem kept_answered : Kept cfg Answered where
  submit {mi} h c := by
    intro q hq hec
    rw [made_submit]
    unfold submit at hq
    split at hq
    · rcases List.mem_append.mp hq with hold | hnew
      · exact h q hold hec
      · -- a callback posted without an endpoint has an error
        obtain rfl := List.mem_singleton.mp hnew
        cases hec
    · exact h q hq hec
  execute {mi mi' lib errno} h hmi := by
    obtain ⟨ep, c, rest, -, -, rfl⟩ := execute_eq_some hmi
    intro q hq hec
    rcases List.mem_append.mp hq with hold | hnew
    · exact (h q hold hec).append _
    · obtain ⟨r, hr, rfl⟩ := List.mem_map.mp hnew
      have htold := tells_of_posted hr hec
      cases c with
      | scan =>
          intro handle hh
          obtain ⟨m, hm, hlists⟩ := htold handle hh
          exact ⟨m, List.mem_append_right _ hm, hlists⟩
      | identify | portInformation | health =>
          obtain ⟨m, hm, htold⟩ := htold
          exact ⟨m, List.mem_append_right _ hm, htold⟩
      | smart | sanitizeLog | sanitize => trivial
  pop {mi q rest} h hio := fun q' hq' => h q' (hio ▸ List.mem_cons_of_mem _ hq')

end NVMeMi

namespace Process
variable {cfg : Config} {p p' : Process} {e : Event} {P : NVMeMi → Prop}

theorem kept_tick {d : NVMeDevice} (hkept : NVMeMi.Kept cfg P) (h : P d.intf) : P (d.tick cfg).intf := by
  unfold NVMeDevice.tick
  split
  · exact hkept.submit h _
  · split
    · exact hkept.submit h _
    · exact hkept.submit (hkept.submit h _) _

theorem intf_of_turn (hkept : NVMeMi.Kept cfg P) (h : P p.drive.intf) (hturn : Turn cfg p e p') : P p'.drive.intf := by
  cases hturn with
  | initializeDrive => exact hkept.submit h _
  | inventory =>
      rw [NVMeDevice.intf_inventory]
      exact h
  | writeFault | refused | expire => exact h
  | erased herased =>
      obtain ⟨-, ⟨-, rfl⟩ | ⟨-, rfl⟩⟩ := NVMeDevice.erase_eq_ok herased
      · exact h
      · exact hkept.submit h _
  | tick => exact kept_tick hkept h
  | execute hmi => exact hkept.execute h hmi
  | deliver hio hhandle =>
      rw [(NVMeDevice.handle_follow hhandle).2]
      exact hkept.follow (hkept.pop h hio)
  | abort hio => exact hkept.pop h hio

end Process

/-! ## The published inventory -/

/-- The properties of a drive that say what it is and how it is doing. -/
structure Inventory where
  present : Bool
  manufacturer : String
  serialNumber : List UInt8
  model : List UInt8
  version : List UInt8
  capacity : UInt64
  sanitizeCapability : List EraseMethod
  maxSpeed : UInt32
  currentSpeed : UInt32
  driveLifeUsed : String
  predictedMediaLifeLeftPercent : UInt8
  functional : Bool
  state : StateType

def NvmeInterfaces.inventory (props : NvmeInterfaces) : Inventory where
  present := props.present
  manufacturer := props.manufacturer
  serialNumber := props.serialNumber
  model := props.model
  version := props.version
  capacity := props.capacity
  sanitizeCapability := props.sanitizeCapability
  maxSpeed := props.maxSpeed
  currentSpeed := props.currentSpeed
  driveLifeUsed := props.driveLifeUsed
  predictedMediaLifeLeftPercent := props.predictedMediaLifeLeftPercent
  functional := props.functional
  state := props.state

/-- The latest answers of a drive: whether the scan has found a controller, and those to the other requests that were
answered without an error. -/
structure Told where
  scan : Option Bool
  identify : Option IdCtrl
  portInformation : Option PortInfo
  health : Option HealthStatus

namespace Told

def init : Told := ⟨none, none, none, none⟩

def see (t : Told) (q : Pending) : Told :=
  match q.command with
  | .scan => { t with scan := some (!q.reply.ec.isError && !q.reply.payload.ctrlList.isEmpty) }
  | .identify _ =>
    if q.reply.ec.isError then t else { t with identify := some (IdCtrl.parse q.reply.payload.bytes) }
  | .portInformation =>
    if q.reply.ec.isError then t else { t with portInformation := some q.reply.payload.portInfo }
  | .health => if q.reply.ec.isError then t else { t with health := some q.reply.payload.healthStatus }
  | .smart _ | .sanitizeLog _ | .sanitize .. => t

def functional (t : Told) : Bool := t.health.all fun ss => ss.nss &&& 0x20 ≠ 0

/-- The properties as the latest answers have them, over those of a drive that has answered nothing. -/
def inventory (t : Told) (unanswered : Inventory) : Inventory where
  present := t.scan.getD unanswered.present
  manufacturer := t.identify.elim unanswered.manufacturer fun id => getManufacture id.vid
  serialNumber := t.identify.elim unanswered.serialNumber fun id => stripString id.sn
  model := t.identify.elim unanswered.model fun id => stripString id.mn
  version := t.identify.elim unanswered.version fun id => id.fr
  capacity := t.identify.elim unanswered.capacity fun id => id.tnvmcap
  sanitizeCapability := t.identify.elim unanswered.sanitizeCapability fun id => sanitizeMethods id.sanicap
  maxSpeed := t.portInformation.elim unanswered.maxSpeed fun port => getMaxLinkSpeed port.sls port.mlw
  currentSpeed := t.portInformation.elim unanswered.currentSpeed fun port => getCurrLinkSpeed port.cls port.nlw
  driveLifeUsed := t.health.elim unanswered.driveLifeUsed fun ss => toString ss.pdlu.toNat
  predictedMediaLifeLeftPercent :=
    t.health.elim unanswered.predictedMediaLifeLeftPercent fun ss => 100 - min ss.pdlu 100
  functional := t.functional
  state := if t.functional then .none else .fault

/-- The answers are those of commands that have been made on the endpoint and have succeeded. -/
structure Said (made : List Made) (t : Told) : Prop where
  scan : t.scan = some true → ∃ h, ∃ m ∈ made, m.Lists h
  identify : ∀ id ∈ t.identify, ∃ m ∈ made, m.call.isIdentify = true ∧ m.ans.rc = 0 ∧
    id = IdCtrl.parse (m.write .null).bytes
  portInformation : ∀ port ∈ t.portInformation, ∃ m ∈ made, (∃ i, m.call = .readMiDataPort i) ∧ m.ans.rc = 0 ∧
    m.ans.out.port = port
  health : ∀ ss ∈ t.health, ∃ m ∈ made, m.call = .subsystemHealthStatusPoll true ∧ m.ans.rc = 0 ∧
    m.ans.out.health = ss

theorem Said.mono {made made' : List Made} {t : Told} (h : t.Said made) (hgrown : made <+: made') : t.Said made' := by
  have hmem : ∀ m ∈ made, m ∈ made' := fun m hm => hgrown.subset hm
  refine ⟨fun hscan => ?_, fun id hid => ?_, fun port hport => ?_, fun ss hss => ?_⟩
  · obtain ⟨h, m, hm, hlists⟩ := h.scan hscan
    exact ⟨h, m, hmem m hm, hlists⟩
  · obtain ⟨m, hm, hsaid⟩ := h.identify id hid
    exact ⟨m, hmem m hm, hsaid⟩
  · obtain ⟨m, hm, hsaid⟩ := h.portInformation port hport
    exact ⟨m, hmem m hm, hsaid⟩
  · obtain ⟨m, hm, hsaid⟩ := h.health ss hss
    exact ⟨m, hmem m hm, hsaid⟩

theorem said_see {made : List Made} {t : Told} {q : Pending} (h : t.Said made)
    (hq : q.reply.ec.isError = false → Tells made q.command q.reply) : (t.see q).Said made := by
  obtain ⟨c, r, n⟩ := q
  unfold see
  cases c with
  | scan =>
      refine ⟨fun hscan => ?_, h.identify, h.portInformation, h.health⟩
      obtain ⟨hec, hlist⟩ : r.ec.isError = false ∧ r.payload.ctrlList.isEmpty = false := by
        simpa using hscan
      obtain ⟨handle, hhandle⟩ := List.exists_mem_of_ne_nil _ (List.isEmpty_eq_false_iff.mp hlist)
      exact ⟨handle, hq hec handle hhandle⟩
  | identify ctrl =>
      dsimp only
      split
      · exact h
      · next hec =>
          obtain ⟨m, hm, hcall, hrc, hbytes⟩ := hq (Bool.eq_false_iff.mpr hec)
          refine ⟨h.scan, ?_, h.portInformation, h.health⟩
          rintro _ ⟨⟩
          refine ⟨m, hm, hcall, hrc, ?_⟩
          rw [hbytes]
          rfl
  | portInformation =>
      dsimp only
      split
      · exact h
      · next hec =>
          refine ⟨h.scan, h.identify, ?_, h.health⟩
          rintro _ ⟨⟩
          exact hq (Bool.eq_false_iff.mpr hec)
  | health =>
      dsimp only
      split
      · exact h
      · next hec =>
          refine ⟨h.scan, h.identify, h.portInformation, ?_⟩
          rintro _ ⟨⟩
          exact hq (Bool.eq_false_iff.mpr hec)
  | smart | sanitizeLog | sanitize => exact h

end Told

/-! ## Callbacks -/

namespace DriveView
variable {cfg : Config} {v v' : DriveView} {unanswered : Inventory} {t : Told}

/-- The drive shows its inventory as the latest answers have it, and remembers whether it works. -/
structure Shows (v : DriveView) (unanswered : Inventory) (t : Told) : Prop where
  inventory : v.props.inventory = t.inventory unanswered
  functional : v.driveFunctional = t.functional

theorem Shows.of_eq (h : v.Shows unanswered t) (hprops : v'.props.inventory = v.props.inventory)
    (hfunctional : v'.driveFunctional = v.driveFunctional) : v'.Shows unanswered t :=
  ⟨hprops.trans h.inventory, hfunctional.trans h.functional⟩

/-- The state and the property are written only where the state changes. -/
theorem inventory_markFunctional (hfunctional : v.driveFunctional = v.props.functional)
    (hstate : v.props.state = if v.props.functional then .none else .fault) (functional : Bool) :
    (v.markFunctional cfg functional).props.inventory =
        { v.props.inventory with functional, state := if functional then .none else .fault } ∧
      (v.markFunctional cfg functional).driveFunctional = functional := by
  unfold markFunctional
  by_cases hsame : v.driveFunctional = functional
  · rw [if_neg (not_not_intro hsame)]
    refine ⟨?_, rfl⟩
    have hprop : v.props.functional = functional := hfunctional.symm.trans hsame
    rw [← hprop, ← hstate]
    rfl
  · rw [if_pos hsame]
    cases functional with
    | false => exact ⟨rfl, rfl⟩
    | true => exact ⟨rfl, rfl⟩

theorem shows_healthUpdate (h : v.Shows unanswered t) (ss : HealthStatus) :
    (v.healthUpdate cfg ss).Shows unanswered { t with health := some ss } := by
  have hprop : v.props.functional = t.functional := congrArg Inventory.functional h.inventory
  have hstate : v.props.state = if v.props.functional then .none else .fault := by
    rw [hprop]
    exact congrArg Inventory.state h.inventory
  have hpercentage : (if ss.pdlu > 100 then 100 else ss.pdlu) = min ss.pdlu 100 := by
    change _ = if ss.pdlu ≤ 100 then ss.pdlu else 100
    by_cases hle : ss.pdlu ≤ 100
    · rw [if_pos hle, if_neg (UInt8.not_lt.mpr hle)]
    · rw [if_neg hle, if_pos (UInt8.not_le.mp hle)]
  unfold healthUpdate
  dsimp only
  rw [hpercentage]
  generalize hu : ({ v with props := _ } : DriveView) = u
  have hfields : u.driveFunctional = u.props.functional ∧
      u.props.state = (if u.props.functional then .none else .fault) ∧
      u.props.inventory = { v.props.inventory with
        driveLifeUsed := toString ss.pdlu.toNat
        predictedMediaLifeLeftPercent := 100 - min ss.pdlu 100 } := by
    rw [← hu]
    exact ⟨h.functional.trans hprop.symm, hstate, rfl⟩
  obtain ⟨hu_functional, hu_state, hu_inventory⟩ := hfields
  obtain ⟨hinventory, hfunctional⟩ : (u.markFunctional cfg (ss.nss &&& 0x20 ≠ 0)).props.inventory = _ ∧ _ :=
    inventory_markFunctional hu_functional hu_state _
  refine ⟨?_, hfunctional⟩
  rw [hinventory, hu_inventory, h.inventory]
  rfl

theorem shows_replied {q : Pending} (h : v.Shows unanswered t)
    (hreplied : NVMeDevice.replied cfg v q.command q.reply = some v') : v'.Shows unanswered (t.see q) := by
  obtain ⟨c, r, n⟩ := q
  cases c with
  | scan =>
      obtain rfl := Option.some.inj hreplied
      let found := !r.ec.isError && !r.payload.ctrlList.isEmpty
      exact ⟨congrArg (fun i : Inventory => { i with present := found }) h.inventory, h.functional⟩
  | identify ctrl =>
      obtain rfl := Option.some.inj hreplied
      by_cases herr : r.ec.isError = true
      · simp only [Told.see, if_pos herr]
        exact h
      · simp only [Told.see, if_neg herr]
        let id := IdCtrl.parse r.payload.bytes
        refine ⟨congrArg (fun i : Inventory => { i with
          manufacturer := getManufacture id.vid
          serialNumber := stripString id.sn
          model := stripString id.mn
          version := id.fr
          capacity := id.tnvmcap
          sanitizeCapability := sanitizeMethods id.sanicap }) h.inventory, h.functional⟩
  | portInformation =>
      obtain rfl := Option.some.inj hreplied
      by_cases herr : r.ec.isError = true
      · simp only [Told.see, if_pos herr]
        exact h
      · simp only [Told.see, if_neg herr]
        let port := r.payload.portInfo
        refine ⟨congrArg (fun i : Inventory => { i with
          maxSpeed := getMaxLinkSpeed port.sls port.mlw
          currentSpeed := getCurrLinkSpeed port.cls port.nlw }) h.inventory, h.functional⟩
  | health =>
      obtain rfl := Option.some.inj hreplied
      by_cases herr : r.ec.isError = true
      · simp only [Told.see, if_pos herr]
        exact h
      · simp only [Told.see, if_neg herr]
        exact shows_healthUpdate h _
  | smart ctrl =>
      obtain rfl := Option.some.inj hreplied
      by_cases herr : r.ec.isError = true
      · simp only [if_pos herr]
        exact h
      · simp only [if_neg herr]
        have hcases : v.smartUpdate cfg r.payload.bytes = v ∨ _ := smartUpdate_cases r.payload.bytes
        rcases hcases with hsame | ⟨cw, status, hshown⟩
        · rw [hsame]
          exact h
        · rw [hshown]
          exact h.of_eq rfl rfl
  | sanitizeLog ctrl =>
      rcases NVMeDevice.replied_sanitizeLog_cases hreplied with ⟨-, rfl⟩ | ⟨-, ⟨-, rfl⟩ | ⟨-, hpercent⟩⟩
      · exact h
      · unfold sanitizeEnded
        split
        · exact h.of_eq rfl rfl
        · split
          · exact h.of_eq rfl rfl
          · exact h
      · obtain ⟨_, _, -, rfl⟩ := updatePercent_eq_some hpercent
        exact h.of_eq rfl rfl
  | sanitize ctrl type passes =>
      obtain rfl := Option.some.inj hreplied
      split
      · exact h.of_eq rfl rfl
      · exact h.of_eq rfl rfl

end DriveView

/-! ## Runs -/

namespace Process
variable {cfg : Config} {p p' : Process} {e : Event}

theorem made_of_turn (hturn : Turn cfg p e p') : p.drive.intf.made <+: p'.drive.intf.made := by
  have hkept : NVMeMi.Kept cfg fun mi => p.drive.intf.made <+: mi.made := by
    refine ⟨fun {mi} h c => ?_, fun {mi mi' lib errno} h hmi => ?_, fun h _ => h⟩
    · rw [NVMeMi.made_submit]
      exact h
    · obtain ⟨ep, c, rest, -, -, rfl⟩ := NVMeMi.execute_eq_some hmi
      exact h.trans (List.prefix_append _ _)
  exact intf_of_turn hkept List.prefix_rfl hturn

end Process

namespace Told
variable {cfg : Config} {o o' : Observed Told} {e : Event} {unanswered : Inventory}

/-- The drive shows what it has been told, and the drive behind it has said so. -/
structure Truthful (o : Observed Told) (unanswered : Inventory) : Prop where
  shows : o.proc.drive.toDriveView.Shows unanswered o.seen
  answered : o.proc.drive.intf.Answered
  said : o.seen.Said o.proc.drive.intf.made

theorem truthful_of_step (h : Truthful o unanswered) (hstep : o.Step see cfg e o') : Truthful o' unanswered := by
  obtain ⟨p', hprocess, rfl⟩ := hstep.eq
  have hturn := (Process.turn_of_step hprocess).2
  have hmade := Process.made_of_turn hturn
  have hanswered := Process.intf_of_turn NVMeMi.kept_answered h.answered hturn
  have hredraw := Process.redraw_of_turn hturn
  suffices hknown : p'.drive.toDriveView.Shows unanswered (o.learnt see e) ∧
      (o.learnt see e).Said o.proc.drive.intf.made from ⟨hknown.1, hanswered, hknown.2.mono hmade⟩
  generalize p'.drive.toDriveView = v at hredraw
  cases hredraw with
  | same hdeliver =>
      rw [Observed.learnt_of_ne hdeliver]
      exact ⟨h.shows, h.said⟩
  | initialized hdeliver =>
      rw [Observed.learnt_of_ne hdeliver]
      exact ⟨h.shows.of_eq rfl rfl, h.said⟩
  | inventory | writeFault => exact ⟨h.shows.of_eq rfl rfl, h.said⟩
  | @replied q rest v hio hreplied =>
      have hq : q ∈ o.proc.drive.intf.io := hio ▸ List.mem_cons_self
      rw [Observed.learnt_deliver hio]
      exact ⟨DriveView.shows_replied h.shows hreplied, said_see h.said (h.answered q hq)⟩
  | @divided q rest ctrl hio hc =>
      have hsame : o.seen.see q = o.seen := by
        unfold see
        rw [hc]
      rw [Observed.learnt_deliver hio, hsame]
      exact ⟨h.shows, h.said⟩

section
variable {props : NvmeInterfaces} {u : Uninitialised} {eid : UInt8} {bus : UInt32} {path : String}
  {timeout : Option Nat} {es : List Event}

theorem truthful_start :
    Truthful (.start cfg init props u eid bus path timeout) props.inventory := by
  refine ⟨⟨rfl, rfl⟩, fun q hq => absurd hq List.not_mem_nil, ⟨nofun, nofun, nofun, nofun⟩⟩

theorem truthful_of_run (hrun : Run (Observed.Step see cfg) (.start cfg init props u eid bus path timeout) es o) :
    Truthful o props.inventory :=
  hrun.invariant (fun o => Truthful o props.inventory) truthful_start fun _ _ _ h hstep => truthful_of_step h hstep

/-- **Published inventory.** In every run the inventory that a drive publishes is the one of the latest answer of each
kind, and every one of these answers was read by a libnvme command of its kind that succeeded. Where the option asks for
an identify of fewer than 332 bytes, the fields that are not in it are those of `IdCtrl.parse`, and the code's own are
undefined. -/
theorem published_of_run (hrun : Run (Observed.Step see cfg) (.start cfg init props u eid bus path timeout) es o) :
    o.proc.drive.props.inventory = o.seen.inventory props.inventory ∧ o.seen.Said o.proc.drive.intf.made :=
  ⟨(truthful_of_run hrun).shows.inventory, (truthful_of_run hrun).said⟩

end

def speaking : Libnvme :=
  .ok { handles := [7], data := [0x4d, 0x14, 0, 0, 0x53, 0x31] ++ zeros 378, port := ⟨1, 4, 8, 4, 4⟩,
        health := ⟨0x20, 3⟩ }

/-- The theorem at a drive that is initialized and answers. -/
theorem published_of_run_speaking : ∃ o,
    Run (Observed.Step see .standard) (.start .standard init default default 10 3 Process.first.drive.objPath (some 5000))
      [.initializeDrive, .execute speaking 0, .deliver, .execute speaking 0, .deliver, .execute speaking 0, .deliver] o ∧
      o.seen.scan = some true ∧
      o.proc.drive.props.inventory = o.seen.inventory (default : NvmeInterfaces).inventory ∧
      o.seen.Said o.proc.drive.intf.made := by
  have hrun : Run (Observed.Step see .standard) (.start .standard init default default 10 3 Process.first.drive.objPath
      (some 5000))
      [.initializeDrive, .execute speaking 0, .deliver, .execute speaking 0, .deliver, .execute speaking 0, .deliver] _ :=
    Run.of_foldlM rfl
  exact ⟨_, hrun, rfl, published_of_run hrun⟩

end Told
end NvmeManager
