import NvmeManager.Device.Members
import NvmeManager.System.Polling

/-!
# Observers of the callbacks

* `Observed` : a process, and what an observer knows who sees each callback that is run; `Observed.Step` : both take an
  event;
* `Effect`, `effect_of_step` : what a step does to the members of a sanitize and to the observer;
* `Process.Redraw`, `redraw_of_turn` : what an event does to the view of a drive.
-/

namespace NvmeManager

/-- A process, and what an observer of its callbacks knows. -/
structure Observed (γ : Type) where
  proc : Process
  seen : γ

namespace Observed
variable {γ : Type} (see : γ → Pending → γ) (cfg : Config)

def start (seen : γ) (props : NvmeInterfaces) (u : Uninitialised) (eid : UInt8) (bus : UInt32) (path : String)
    (timeout : Option Nat) : Observed γ :=
  ⟨.start cfg props u eid bus path timeout, seen⟩

def learnt (o : Observed γ) : Event → γ
  | .deliver =>
    match o.proc.drive.intf.io with
    | q :: _ => see o.seen q
    | [] => o.seen
  | _ => o.seen

def next (o : Observed γ) (e : Event) : Option (Observed γ) := (o.proc.next cfg e).map (⟨·, o.learnt see e⟩)

def Step (o : Observed γ) (e : Event) (o' : Observed γ) : Prop := o.next see cfg e = some o'

/-- What a step does to the members of a sanitize, and what is seen of it. -/
inductive Effect (o : Observed γ) : Event → Observed γ → Prop
  | quiet {e : Event} {o' : Observed γ} :
      e ≠ .deliver → o'.proc.drive.sanitizeMembers = o.proc.drive.sanitizeMembers → o'.seen = o.seen → Effect o e o'
  | callback {q : Pending} {rest : List Pending} {o' : Observed γ} :
      o.proc.drive.intf.io = q :: rest →
        NVMeDevice.replied cfg o.proc.drive.toDriveView q.command q.reply = some o'.proc.drive.toDriveView →
          o'.seen = see o.seen q → Effect o .deliver o'
  /-- The percentage of a sanitize is a division by zero. -/
  | abort {q : Pending} {rest : List Pending} {ctrl : Ctrl} {o' : Observed γ} :
      o.proc.drive.intf.io = q :: rest → q.command = .sanitizeLog ctrl → q.reply.ec.isError = false →
        (SanitizeLogPage.parse q.reply.payload.bytes).res = NVME_SANITIZE_SSTAT_STATUS_IN_PROGESS →
          o'.proc.drive.toDriveView = o.proc.drive.toDriveView → o'.seen = see o.seen q → Effect o .deliver o'

variable {see} {cfg} {o o' : Observed γ} {e : Event}

theorem Step.eq (h : o.Step see cfg e o') : ∃ proc', o.proc.Step cfg e proc' ∧ o' = ⟨proc', o.learnt see e⟩ := by
  obtain ⟨proc', hstep, heq⟩ := Option.map_eq_some_iff.mp h
  exact ⟨proc', hstep, heq.symm⟩

theorem learnt_deliver {q : Pending} {rest : List Pending} (hio : o.proc.drive.intf.io = q :: rest) :
    o.learnt see .deliver = see o.seen q := by
  unfold learnt
  rw [hio]

/-- An observer learns nothing but from the callbacks. -/
theorem learnt_of_ne (h : e ≠ .deliver) : o.learnt see e = o.seen := by
  cases e with
  | deliver => exact absurd rfl h
  | initializeDrive | inventory | writeFault | erase | expire | tick | execute => rfl

theorem Step.deliver {q : Pending} {rest : List Pending} {d : NVMeDevice} (hio : o.proc.drive.intf.io = q :: rest)
    (hhandle : (o.proc.popped rest).handle cfg q.command q.reply = some d) (h : o.Step see cfg .deliver o') :
    o'.proc.drive = d ∧ o'.seen = see o.seen q := by
  obtain ⟨proc', hstep, rfl⟩ := h.eq
  refine ⟨?_, learnt_deliver hio⟩
  cases (Process.turn_of_step hstep).2 with
  | deliver hio' hhandle' =>
      obtain ⟨rfl, rfl⟩ := List.cons.inj (hio.symm.trans hio')
      exact Option.some.inj (hhandle'.symm.trans hhandle)
  | abort hio' hnone =>
      obtain ⟨rfl, rfl⟩ := List.cons.inj (hio.symm.trans hio')
      rw [hnone] at hhandle
      cases hhandle

theorem effect_of_step (h : o.Step see cfg e o') : Effect see cfg o e o' := by
  obtain ⟨proc', hstep, rfl⟩ := h.eq
  cases (Process.turn_of_step hstep).2 with
  | @deliver q rest d hio hhandle =>
      have hview : NVMeDevice.replied cfg (o.proc.popped rest).toDriveView q.command q.reply = some d.toDriveView :=
        NVMeDevice.handle_view hhandle
      exact .callback hio hview (learnt_deliver hio)
  | abort hio hnone =>
      obtain ⟨ctrl, hc, herr, hzero⟩ := NVMeDevice.handle_eq_none hnone
      exact .abort hio hc herr hzero.1 rfl (learnt_deliver hio)
  | inventory => exact .quiet nofun (NVMeDevice.sanitizeMembers_inventory _ _) rfl
  | tick => exact .quiet nofun NVMeDevice.sanitizeMembers_tick rfl
  | erased herase =>
      rcases (NVMeDevice.erase_eq_ok herase).2 with ⟨_, rfl⟩ | ⟨_, rfl⟩
      · exact .quiet nofun rfl rfl
      · exact .quiet nofun rfl rfl
  | initializeDrive | writeFault | refused | expire | execute => exact .quiet nofun rfl rfl

end Observed

/-! ## The view of a drive -/

namespace Process
variable {cfg : Config} {p p' : Process} {e : Event}

/-- What an event does to the view of a drive. -/
inductive Redraw (cfg : Config) (p : Process) : Event → DriveView → Prop
  | same {e : Event} : e ≠ .deliver → Redraw cfg p e p.drive.toDriveView
  | initialized {e : Event} : e ≠ .deliver → Redraw cfg p e
      { p.drive.toDriveView with props := { p.drive.props with type := .ssd, protocol := .nvme } }
  | inventory {form driveAssoc driveAssociation : String} {formFactor : DriveFormFactor}
      {assocs associations : List Association} : Redraw cfg p (.inventory form driveAssoc)
        { p.drive.toDriveView with driveAssociation, assocs, props := { p.drive.props with formFactor, associations } }
  | writeFault {f : Fault} {value : Bool} : Redraw cfg p (.writeFault f value) (p.drive.toDriveView.writeFault f value)
  | replied {q : Pending} {rest : List Pending} {v : DriveView} :
      p.drive.intf.io = q :: rest → NVMeDevice.replied cfg p.drive.toDriveView q.command q.reply = some v →
        Redraw cfg p .deliver v
  /-- The percentage of a sanitize is a division by zero. -/
  | divided {q : Pending} {rest : List Pending} {ctrl : Ctrl} :
      p.drive.intf.io = q :: rest → q.command = .sanitizeLog ctrl → Redraw cfg p .deliver p.drive.toDriveView

theorem redraw_of_turn (h : Turn cfg p e p') : Redraw cfg p e p'.drive.toDriveView := by
  cases h with
  | initializeDrive => exact .initialized nofun
  | writeFault => exact .writeFault
  | refused | expire | execute => exact .same nofun
  | inventory =>
      dsimp only
      unfold NVMeDevice.inventory DriveView.updateFormFactor DriveView.updateDriveAssociations
      dsimp only
      split
      · exact .inventory
      · exact .inventory
  | erased herased =>
      obtain ⟨-, ⟨-, rfl⟩ | ⟨-, rfl⟩⟩ := NVMeDevice.erase_eq_ok herased
      · exact .same nofun
      · exact .same nofun
  | tick =>
      dsimp only
      rw [NVMeDevice.toDriveView_tick]
      split
      · exact .initialized nofun
      · exact .same nofun
  | @deliver q rest d hio hhandle => exact .replied hio (NVMeDevice.handle_view (d := p.popped rest) hhandle)
  | abort hio hhandle =>
      obtain ⟨ctrl, hc, -⟩ := NVMeDevice.handle_eq_none hhandle
      exact .divided hio hc

end Process
end NvmeManager
