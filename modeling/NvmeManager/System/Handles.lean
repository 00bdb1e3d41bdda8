import NvmeManager.Device.Requests
import NvmeManager.System.Process

/-!
# Controller handles

A scan of the endpoint invalidates the handles of the scans before it; the requests of a drive capture the handle when
they are made, and use it when the worker executes them.

* `Made.Fresh` : the command carries no handle, or one of the last scan executed before it;
* `FreshQueue` : the requests that wait will be fresh: up to the first scan they carry a handle of the last scan, and
  behind it none;
* `NVMeMi.Stale` : a handle that will be out of date when a request made with it now is executed;
* `Process.uses` : the handle with which an event makes a request; `handles_fresh` : in a run in which no event uses a
  stale handle, every command is fresh.
-/

namespace NvmeManager

/-- A handle of the last scan that the endpoint has seen; handles of scan 0 are of no scan. -/
def Made.Fresh (m : Made) : Prop := ∀ h ∈ m.call.ctrl?, h.scan = m.scans ∧ h.scan ≠ 0

/-- The requests carry handles of scan number `scans` up to the first scan, and none behind it. -/
def FreshQueue (scans : Nat) : List Command → Prop
  | [] => True
  | c :: rest =>
    if c = .scan then ∀ c' ∈ rest, c'.ctrl? = none
    else (∀ h ∈ c.ctrl?, h.scan = scans ∧ h.scan ≠ 0) ∧ FreshQueue scans rest

theorem freshQueue_of_none {scans : Nat} {q : List Command} (h : ∀ c ∈ q, c.ctrl? = none) : FreshQueue scans q := by
  induction q with
  | nil => trivial
  | cons c rest ih =>
      have hrest : ∀ c' ∈ rest, c'.ctrl? = none := fun c' hc' => h c' (List.mem_cons_of_mem _ hc')
      unfold FreshQueue
      split
      · exact hrest
      · refine ⟨?_, ih hrest⟩
        rw [h c List.mem_cons_self]
        exact nofun

/-- A request joins the queue: one with a handle needs that no scan waits, and a handle of the last scan. -/
theorem freshQueue_append {scans : Nat} {q : List Command} {c : Command} (hq : FreshQueue scans q)
    (hc : ∀ h ∈ c.ctrl?, .scan ∉ q ∧ h.scan = scans ∧ h.scan ≠ 0) : FreshQueue scans (q ++ [c]) := by
  induction q with
  | nil =>
      rw [List.nil_append, FreshQueue]
      split
      · exact nofun
      · exact ⟨fun h hh => (hc h hh).2, trivial⟩
  | cons c₀ rest ih =>
      rw [List.cons_append, FreshQueue]
      unfold FreshQueue at hq
      split
      · next hscan =>
          rw [if_pos hscan] at hq
          intro c' hc'
          rcases List.mem_append.mp hc' with hc' | hc'
          · exact hq c' hc'
          · obtain rfl := List.mem_singleton.mp hc'
            rw [Option.eq_none_iff_forall_not_mem]
            intro h hh
            exact (hc h hh).1 (hscan ▸ List.mem_cons_self)
      · next hscan =>
          rw [if_neg hscan] at hq
          refine ⟨hq.1, ih hq.2 fun h hh => ?_⟩
          obtain ⟨hnone, hfresh⟩ := hc h hh
          exact ⟨fun hmem => hnone (List.mem_cons_of_mem _ hmem), hfresh⟩

/-! ## The interface -/

namespace NVMeMi
variable {cfg : Config} {mi mi' : NVMeMi} {c : Command}

/-- A request made with the handle now would be executed behind a later scan than the one that produced it. -/
def Stale (mi : NVMeMi) (h : Ctrl) : Prop :=
  ∃ ep ∈ mi.nvmeEP, .scan ∈ mi.worker ∨ h.scan ≠ ep.scans ∨ h.scan = 0

/-- The commands made are fresh, and those that wait will be. -/
structure Fresh (mi : NVMeMi) : Prop where
  queue : ∀ ep ∈ mi.nvmeEP, FreshQueue ep.scans mi.worker
  made : ∀ m ∈ mi.made, m.Fresh

theorem fresh_submit (hf : mi.Fresh) (hc : ∀ h ∈ c.ctrl?, ¬ mi.Stale h) : (mi.submit cfg c).Fresh := by
  refine ⟨?_, ?_⟩
  · rw [nvmeEP_submit]
    intro ep hep
    rw [worker_submit hep]
    refine freshQueue_append (hf.queue ep hep) fun h hh => ?_
    have hnot := hc h hh
    refine ⟨?_, ?_, ?_⟩
    · exact fun hscan => hnot ⟨ep, hep, .inl hscan⟩
    · by_contra hne
      exact hnot ⟨ep, hep, .inr (.inl hne)⟩
    · exact fun hzero => hnot ⟨ep, hep, .inr (.inr hzero)⟩
  · rw [made_submit]
    exact hf.made

theorem fresh_submit_none (hf : mi.Fresh) (hc : c.ctrl? = none) : (mi.submit cfg c).Fresh := by
  refine fresh_submit hf ?_
  rw [hc]
  exact nofun

/-- The worker executes the head of the queue: a scan invalidates all handles, but none is left behind it. -/
theorem fresh_execute {lib : Libnvme} {errno : Int} (hf : mi.Fresh) (h : mi.execute cfg lib errno = some mi') :
    mi'.Fresh := by
  obtain ⟨ep, c, rest, hep, hworker, rfl⟩ := execute_eq_some h
  have hq := hf.queue ep hep
  rw [hworker] at hq
  unfold FreshQueue at hq
  by_cases hscan : c = .scan
  · subst hscan
    rw [if_pos rfl] at hq
    refine ⟨?_, ?_⟩
    · intro ep' _
      exact freshQueue_of_none hq
    · intro m hm
      rcases List.mem_append.mp hm with hm | hm
      · exact hf.made m hm
      · intro h hh
        exact absurd ((made_request hm).ctrl? h hh) (Option.not_mem_none h)
  · rw [if_neg hscan] at hq
    have hscans : ((c.request cfg).executed lib errno ep).Scans ep.scans := scans_request hscan
    refine ⟨?_, ?_⟩
    · rintro ep' ⟨⟩
      rw [hscans.ep]
      exact hq.2
    · intro m hm
      rcases List.mem_append.mp hm with hm | hm
      · exact hf.made m hm
      · intro h hh
        rw [hscans.made m hm]
        exact hq.1 h ((made_request hm).ctrl? h hh)

end NVMeMi

/-! ## The drive -/

namespace Process
variable {cfg : Config} {p p' : Process} {e : Event}

/-- The handle with which the callback of a request makes the next one. -/
def usesCallback (d : NVMeDevice) (c : Command) (r : Reply) : Option Ctrl :=
  match c with
  | .scan => if r.ec.isError then none else r.payload.ctrlList.getLast?
  | .identify _ => if r.ec.isError ∧ d.retry < NVMeDevice.maxIdentifyCmdRetry then some d.ctrl else none
  | _ => none

/-- The handle with which an event makes a request: a poll, an erase that is accepted, and an identify, the first one
after a scan or a retry. -/
def uses (p : Process) : Event → Option Ctrl
  | .tick => if p.drive.presence then some p.drive.ctrl else none
  | .erase _ type =>
    if p.drive.inProgress = false ∧ type ∈ p.drive.props.sanitizeCapability then some p.drive.ctrl else none
  | .deliver => p.drive.intf.io.head?.bind fun q => usesCallback p.drive q.command q.reply
  | _ => none

/-- An event makes a request with a handle that will be out of date when it is executed. -/
def UsesStale (p : Process) (e : Event) : Prop := ∃ h ∈ p.uses e, p.drive.intf.Stale h

theorem uses_follow {d : NVMeDevice} {c c' : Command} {r : Reply} (h : d.follow c r = .request c') :
    ∀ ctrl ∈ c'.ctrl?, ctrl ∈ usesCallback d c r := by
  unfold NVMeDevice.follow at h
  unfold usesCallback
  cases c with
  | scan =>
      cases hec : r.ec.isError with
      | true =>
          rw [hec] at h
          cases h
      | false =>
          cases hlast : r.payload.ctrlList.getLast? with
          | none =>
              rw [hec, hlast] at h
              cases h
          | some ctrl =>
              rw [hec, hlast] at h
              cases h
              exact fun _ hctrl => hctrl
  | identify ctrl =>
      obtain rfl := NVMeDevice.Follow.request.inj h
      dsimp only
      split
      · exact fun _ hctrl => hctrl
      · exact nofun
  | sanitizeLog ctrl =>
      dsimp only at h
      split at h
      · cases h
      · cases h
  | portInformation | health | smart | sanitize => cases h

theorem fresh_handle {d d' : NVMeDevice} {c : Command} {r : Reply} (hf : d.intf.Fresh)
    (hok : ∀ h ∈ usesCallback d c r, ¬ d.intf.Stale h) (h : d.handle cfg c r = some d') : d'.intf.Fresh := by
  rw [(NVMeDevice.handle_follow h).2]
  cases hfollow : d.follow c r with
  | request c' => exact NVMeMi.fresh_submit hf fun ctrl hctrl => hok ctrl (uses_follow hfollow ctrl hctrl)
  | wait | nothing => exact hf

theorem fresh_tick {d : NVMeDevice} (hf : d.intf.Fresh) (hok : d.presence = true → ¬ d.intf.Stale d.ctrl) :
    (d.tick cfg).intf.Fresh := by
  unfold NVMeDevice.tick
  split
  · exact NVMeMi.fresh_submit_none hf rfl
  · next hpresence =>
      rw [Bool.not_eq_false] at hpresence
      split
      · refine NVMeMi.fresh_submit hf ?_
        rintro _ ⟨⟩
        exact hok hpresence
      · refine NVMeMi.fresh_submit (NVMeMi.fresh_submit_none hf rfl) ?_
        rintro _ ⟨⟩ hstale
        refine hok hpresence ?_
        obtain ⟨ep, hep, hstale⟩ := hstale
        have hep : d.intf.nvmeEP = some ep := by
          rw [← NVMeMi.nvmeEP_submit]
          exact hep
        refine ⟨ep, hep, hstale.imp_left fun hscan => ?_⟩
        change .scan ∈ (d.intf.submit cfg .health).worker at hscan
        rw [NVMeMi.worker_submit hep] at hscan
        simpa using hscan

theorem fresh_of_turn (hf : p.drive.intf.Fresh) (hok : ¬ p.UsesStale e) (h : Turn cfg p e p') :
    p'.drive.intf.Fresh := by
  have hok : ∀ h ∈ p.uses e, ¬ p.drive.intf.Stale h := fun h hh hstale => hok ⟨h, hh, hstale⟩
  cases h with
  | initializeDrive => exact NVMeMi.fresh_submit_none hf rfl
  | inventory =>
      rw [NVMeDevice.intf_inventory]
      exact hf
  | writeFault => exact hf
  | refused => exact hf
  | erased herase =>
      obtain ⟨hprogress, ⟨_, rfl⟩ | ⟨hcap, rfl⟩⟩ := NVMeDevice.erase_eq_ok herase
      · exact hf
      · refine NVMeMi.fresh_submit hf ?_
        rintro _ ⟨⟩
        refine hok _ ?_
        rw [uses, if_pos ⟨hprogress, hcap⟩]
        rfl
  | expire => exact hf
  | tick =>
      refine fresh_tick hf fun hpresence => hok _ ?_
      rw [uses, if_pos hpresence]
      rfl
  | execute hmi => exact NVMeMi.fresh_execute hf hmi
  | @deliver q rest d hio hhandle =>
      have hpopped : (p.popped rest).intf.Fresh := ⟨hf.queue, hf.made⟩
      refine fresh_handle hpopped (fun h hh => hok h ?_) hhandle
      rw [uses, hio]
      exact hh
  | abort => exact ⟨hf.queue, hf.made⟩

section
variable {props : NvmeInterfaces} {u : Uninitialised} {eid : UInt8} {bus : UInt32} {path : String}
  {timeout : Option Nat}

theorem fresh_start : (start cfg props u eid bus path timeout).drive.intf.Fresh :=
  ⟨fun _ _ => trivial, fun _ hm => absurd hm List.not_mem_nil⟩

/-- **Handles.** In a run in which no request is made with a handle that is out of date by the time of its execution,
every command that the worker has executed carries a handle of the last scan before it, or none. -/
theorem handles_fresh {es : List Event}
    (hrun : Run (guarded (fun p e => ¬ p.UsesStale e) (Step cfg)) (start cfg props u eid bus path timeout) es p) :
    ∀ m ∈ p.drive.intf.made, m.Fresh := by
  have hstart : (start cfg props u eid bus path timeout).drive.intf.Fresh := fresh_start
  have hfresh : p.drive.intf.Fresh := by
    refine hrun.guarded_invariant (fun p => p.drive.intf.Fresh) hstart ?_
    intro s e s' hf hok h
    exact fresh_of_turn hf hok (turn_of_step h).2
  exact hfresh.made

end

/-- The theorem at a drive that is scanned and identified. -/
theorem handles_fresh_identified : ∃ p,
    Run (guarded (fun p e => ¬ p.UsesStale e) (Step .standard)) first
      [.initializeDrive, .execute (.ok { handles := [7] }) 0, .deliver, .execute (.status 3) 0] p ∧
      p.drive.intf.made.length = 2 ∧ ∀ m ∈ p.drive.intf.made, m.Fresh := by
  let found : Libnvme := .ok { handles := [7] }
  let refused : Libnvme := .status 3
  let p₁ : Process := ⟨first.drive.initializeDrive .standard, false⟩
  let p₂ : Process := (p₁.next .standard (.execute found 0)).getD p₁
  let p₃ : Process := (p₂.next .standard .deliver).getD p₂
  let p₄ : Process := (p₃.next .standard (.execute refused 0)).getD p₃
  have hrun₁ : Run (guarded (fun p e => ¬ p.UsesStale e) (Step .standard)) first [.initializeDrive] p₁ :=
    Run.nil.snoc ⟨by rintro ⟨_, ⟨⟩, _⟩, rfl⟩
  have hrun₂ : Run (guarded (fun p e => ¬ p.UsesStale e) (Step .standard)) first
      [.initializeDrive, .execute found 0] p₂ := hrun₁.snoc ⟨by rintro ⟨_, ⟨⟩, _⟩, rfl⟩
  have hfresh : ¬ p₂.UsesStale .deliver := by
    rintro ⟨_, ⟨⟩, _, ⟨⟩, h⟩
    revert h
    decide
  have hrun₃ : Run (guarded (fun p e => ¬ p.UsesStale e) (Step .standard)) first
      [.initializeDrive, .execute found 0, .deliver] p₃ := hrun₂.snoc ⟨hfresh, rfl⟩
  have hrun₄ : Run (guarded (fun p e => ¬ p.UsesStale e) (Step .standard)) first
      [.initializeDrive, .execute found 0, .deliver, .execute refused 0] p₄ :=
    hrun₃.snoc ⟨by rintro ⟨_, ⟨⟩, _⟩, rfl⟩
  exact ⟨p₄, hrun₄, rfl, handles_fresh hrun₄⟩

/-- Two discovery rounds in a row: the identify after the first scan is executed behind the second one. -/
theorem identify_behind_second_scan : ∃ p,
    Run (Step .standard) first
      [.initializeDrive, .initializeDrive, .execute (.ok { handles := [7] }) 0, .deliver,
        .execute (.ok { handles := [8] }) 0, .execute (.status 3) 0] p ∧
      ∃ m ∈ p.drive.intf.made, ¬ m.Fresh := by
  refine ⟨_, Run.of_foldlM rfl, ?_⟩
  refine ⟨⟨.identifyPartial ⟨1, 7⟩ .ctrl 0 0 0 384, 2, .status 3⟩, ?_, ?_⟩
  · exact List.mem_of_getLast? rfl
  · intro hfresh
    exact absurd (hfresh ⟨1, 7⟩ rfl).1 (by decide)

end Process
end NvmeManager
