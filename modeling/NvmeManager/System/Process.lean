import NvmeManager.Lib.Run
import NvmeManager.Device.Drive

/-!
# A drive in the event loop

One drive, the main loop and the worker, as seen from the drive.

* `Process` : the drive, and whether the process has been aborted; `Process.next` : what one event does;
* `Turn` : the same, with one case for each event; `turn_of_step` : every step is one;
* `NVMeMi.outstanding` : the requests that wait for the worker or whose callback waits for the loop; `countP_submit`,
  `countP_pop` : how many there are of a kind.
-/

namespace NvmeManager

/-- What can happen to a drive next. -/
inductive Event
  /-- `handleEmEndpoints` initializes the drive. -/
  | initializeDrive
  | inventory (form driveAssoc : String)
  | writeFault (f : Fault) (value : Bool)
  | erase (overwritePasses : UInt16) (type : EraseMethod)
  /-- The wait of `scanTimer` expires. -/
  | expire
  /-- The oldest handler of `scanTimer` that is ready is run. -/
  | tick
  /-- The worker executes the oldest request. -/
  | execute (lib : Libnvme) (errno : Int)
  /-- The oldest callback is run. -/
  | deliver

structure Process where
  drive : NVMeDevice
  /-- A handler has divided by zero. -/
  aborted : Bool

namespace Process
variable (cfg : Config)

def start (props : NvmeInterfaces) (u : Uninitialised) (eid : UInt8) (bus : UInt32) (path : String)
    (timeout : Option Nat) : Process :=
  ⟨.create cfg props u eid bus path timeout, false⟩

def first : Process := ⟨.first, false⟩

/-- What an event does to a drive; `none` if it cannot happen. -/
def next (p : Process) (e : Event) : Option Process :=
  if p.aborted then none
  else
    let d := p.drive
    match e with
    | .initializeDrive => some { p with drive := d.initializeDrive cfg }
    | .inventory form driveAssoc => some { p with drive := d.inventory form driveAssoc }
    | .writeFault f value => some { p with drive := { d with toDriveView := d.toDriveView.writeFault f value } }
    | .erase passes type =>
      match d.erase cfg passes type with
      | .error .NotAllowed => some p
      | .ok d => some { p with drive := d }
    | .expire => d.scanTimer.expire.map fun t => { p with drive := { d with scanTimer := t } }
    | .tick => d.scanTimer.take?.map fun t => { p with drive := { d with scanTimer := t.2 }.tick cfg }
    | .execute lib errno =>
      (d.intf.execute cfg lib errno).map fun mi => { p with drive := { d with intf := mi } }
    | .deliver =>
      match d.intf.io with
      | [] => none
      | q :: rest =>
        let d := { d with intf := { d.intf with io := rest } }
        match d.handle cfg q.command q.reply with
        | some d => some { p with drive := d }
        | none => some ⟨d, true⟩

def Step (p : Process) (e : Event) (p' : Process) : Prop := p.next cfg e = some p'

def popped (p : Process) (rest : List Pending) : NVMeDevice := { p.drive with intf := { p.drive.intf with io := rest } }

/-- What each event does. -/
inductive Turn (p : Process) : Event → Process → Prop
  | initializeDrive : Turn p .initializeDrive ⟨p.drive.initializeDrive cfg, false⟩
  | inventory {form driveAssoc : String} : Turn p (.inventory form driveAssoc) ⟨p.drive.inventory form driveAssoc, false⟩
  | writeFault {f : Fault} {value : Bool} :
      Turn p (.writeFault f value) ⟨{ p.drive with toDriveView := p.drive.toDriveView.writeFault f value }, false⟩
  | refused {passes : UInt16} {type : EraseMethod} :
      p.drive.erase cfg passes type = .error .NotAllowed → Turn p (.erase passes type) p
  | erased {passes : UInt16} {type : EraseMethod} {d : NVMeDevice} :
      p.drive.erase cfg passes type = .ok d → Turn p (.erase passes type) ⟨d, false⟩
  | expire {t : SteadyTimer Unit} :
      p.drive.scanTimer.expire = some t → Turn p .expire ⟨{ p.drive with scanTimer := t }, false⟩
  | tick {t : SteadyTimer Unit} :
      p.drive.scanTimer.take? = some ((), t) → Turn p .tick ⟨{ p.drive with scanTimer := t }.tick cfg, false⟩
  | execute {lib : Libnvme} {errno : Int} {mi : NVMeMi} :
      p.drive.intf.execute cfg lib errno = some mi →
        Turn p (.execute lib errno) ⟨{ p.drive with intf := mi }, false⟩
  | deliver {q : Pending} {rest : List Pending} {d : NVMeDevice} :
      p.drive.intf.io = q :: rest → (p.popped rest).handle cfg q.command q.reply = some d → Turn p .deliver ⟨d, false⟩
  | abort {q : Pending} {rest : List Pending} :
      p.drive.intf.io = q :: rest → (p.popped rest).handle cfg q.command q.reply = none →
        Turn p .deliver ⟨p.popped rest, true⟩

variable {cfg} {p p' : Process} {e : Event}

theorem next_deliver {q : Pending} {rest : List Pending} (hrunning : p.aborted = false)
    (hio : p.drive.intf.io = q :: rest) : p.next cfg .deliver =
      ((p.popped rest).handle cfg q.command q.reply).elim (some ⟨p.popped rest, true⟩) fun d => some ⟨d, false⟩ := by
  obtain ⟨d, aborted⟩ := p
  obtain rfl : aborted = false := hrunning
  have hio' : d.intf.io = q :: rest := hio
  unfold next popped
  rw [if_neg Bool.false_ne_true]
  dsimp only
  rw [hio']
  dsimp only
  generalize NVMeDevice.handle cfg _ q.command q.reply = result
  cases result with
  | none | some => rfl

theorem turn_of_step (h : p.Step cfg e p') : p.aborted = false ∧ Turn cfg p e p' := by
  obtain ⟨d, aborted⟩ := p
  cases aborted with
  | true => cases h
  | false =>
      refine ⟨rfl, ?_⟩
      cases e with
      | initializeDrive =>
          obtain rfl := Option.some.inj h
          exact .initializeDrive
      | inventory form driveAssoc =>
          obtain rfl := Option.some.inj h
          exact .inventory
      | writeFault f value =>
          obtain rfl := Option.some.inj h
          exact .writeFault
      | erase passes type =>
          cases herase : d.erase cfg passes type with
          | error err =>
              cases err
              have heq : some (⟨d, false⟩ : Process) = some p' := by
                rw [← h]
                simp [next, herase]
              obtain rfl := Option.some.inj heq
              exact .refused herase
          | ok d' =>
              have heq : some (⟨d', false⟩ : Process) = some p' := by
                rw [← h]
                simp [next, herase]
              obtain rfl := Option.some.inj heq
              exact .erased herase
      | expire =>
          obtain ⟨t, ht, rfl⟩ := Option.map_eq_some_iff.mp h
          exact .expire ht
      | tick =>
          obtain ⟨⟨⟨⟩, t⟩, ht, rfl⟩ := Option.map_eq_some_iff.mp h
          exact .tick ht
      | execute lib errno =>
          obtain ⟨mi, hmi, rfl⟩ := Option.map_eq_some_iff.mp h
          exact .execute hmi
      | deliver =>
          cases hio : d.intf.io with
          | nil => simp [Step, next, hio] at h
          | cons q rest =>
              rw [Step, next_deliver rfl hio] at h
              cases hhandle : (popped ⟨d, false⟩ rest).handle cfg q.command q.reply with
              | none =>
                  rw [hhandle] at h
                  obtain rfl := Option.some.inj h
                  exact .abort hio hhandle
              | some d' =>
                  rw [hhandle] at h
                  obtain rfl := Option.some.inj h
                  exact .deliver hio hhandle

end Process

/-! ## Outstanding requests -/

namespace NVMeMi
variable {cfg : Config} {mi : NVMeMi} {c c' : Command}

/-- The requests that have not been handled: those whose callback waits for the loop, and those in the queue of the
worker. -/
def outstanding (mi : NVMeMi) : List Command := mi.io.map Pending.command ++ mi.worker

theorem mem_outstanding_submit : c' ∈ (mi.submit cfg c).outstanding ↔ c' ∈ mi.outstanding ∨ c' = c := by
  unfold submit outstanding
  cases hep : mi.nvmeEP with
  | none =>
      simp only [List.map_append, List.map_cons, List.map_nil, List.mem_append, List.mem_singleton]
      tauto
  | some ep =>
      simp only [List.mem_append, List.mem_singleton]
      tauto

theorem countP_submit (p : Command → Bool) :
    (mi.submit cfg c).outstanding.countP p = mi.outstanding.countP p + if p c then 1 else 0 := by
  unfold submit outstanding
  cases mi.nvmeEP with
  | none =>
      simp only [List.map_append, List.map_cons, List.map_nil, List.countP_append, List.countP_singleton]
      omega
  | some ep =>
      simp only [List.countP_append, List.countP_singleton]
      omega

theorem countP_pop (p : Command → Bool) {q : Pending} {rest : List Pending} (hio : mi.io = q :: rest) :
    mi.outstanding.countP p =
      (if p q.command then 1 else 0) + ({ mi with io := rest } : NVMeMi).outstanding.countP p := by
  unfold outstanding
  rw [hio, List.map_cons, List.cons_append, List.countP_cons, Nat.add_comm]

theorem mem_outstanding_self : c ∈ (mi.submit cfg c).outstanding := mem_outstanding_submit.mpr (.inr rfl)

theorem mem_outstanding_of_mem (h : c' ∈ mi.outstanding) : c' ∈ (mi.submit cfg c).outstanding :=
  mem_outstanding_submit.mpr (.inl h)

end NVMeMi
end NvmeManager
