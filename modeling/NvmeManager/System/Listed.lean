import NvmeManager.System.Published
import NvmeManager.System.Stale
import NvmeManager.System.Written

/-!
# Handles come from scans

* `Justified` : every command has what it needs in the commands before it; `justified_append`;
* `NVMeMi.Sourced` : the handles of the outstanding requests, of the controllers that callbacks bring and of the commands
  made are listed; `sourced_submit`, `sourced_execute`;
* `NVMeDevice.Sourced` : so is the handle of the drive, once a scan has found a controller; `sourced_of_turn`;
* `listed_of_run` : no request and no command carries a handle that no scan has found.
-/

namespace NvmeManager

/-! ## Commands that need an earlier one -/

/-- Every item has what it needs in those before it. -/
def Justified {α : Type} (needs : List α → α → Prop) (items : List α) : Prop :=
  ∀ before a after, items = before ++ a :: after → needs before a

section
variable {α : Type} {needs : List α → α → Prop} {items more : List α}

theorem justified_nil : Justified needs [] := fun before a after h => by
  cases before <;> cases h

/-- Later items may need anything from the items so far. -/
theorem justified_append (hmono : ∀ before rest a, needs before a → needs (before ++ rest) a)
    (h : Justified needs items) (hmore : ∀ a ∈ more, needs items a) : Justified needs (items ++ more) := by
  intro before a after hsplit
  rcases List.append_eq_append_iff.mp hsplit with ⟨rest, rfl, hrest⟩ | ⟨rest, hitems, hrest⟩
  · exact hmono _ _ _ (hmore a (hrest ▸ List.mem_append_right _ List.mem_cons_self))
  · cases rest with
    | nil =>
        rw [List.append_nil] at hitems
        rw [List.nil_append] at hrest
        exact hitems ▸ hmore a (hrest ▸ List.mem_cons_self)
    | cons b rest =>
        obtain ⟨rfl, -⟩ := List.cons.inj hrest
        exact h before a rest hitems

end

/-! ## The interface -/

namespace NVMeMi
variable {cfg : Config} {mi mi' : NVMeMi} {c : Command} {h : Ctrl}

/-- A scan of the endpoint has found the handle. -/
def Listed (made : List Made) (h : Ctrl) : Prop := ∃ m ∈ made, m.Lists h

theorem Listed.append {made : List Made} (hh : Listed made h) (rest : List Made) : Listed (made ++ rest) h := by
  obtain ⟨m, hm, hlists⟩ := hh
  exact ⟨m, List.mem_append_left _ hm, hlists⟩

/-- Every handle that an interface carries has been found by a scan, and was before a command was made with it. -/
structure Sourced (mi : NVMeMi) : Prop where
  answered : mi.Answered
  requests : mi.Only fun c => ∀ h ∈ c.ctrl?, Listed mi.made h
  made : Justified (fun before m => ∀ h ∈ m.call.ctrl?, Listed before h) mi.made

theorem sourced_submit (hs : mi.Sourced) (hc : ∀ h ∈ c.ctrl?, Listed mi.made h) : (mi.submit cfg c).Sourced := by
  refine ⟨kept_answered.submit hs.answered c, ?_, ?_⟩
  · rw [made_submit]
    exact only_submit hs.requests hc
  · rw [made_submit]
    exact hs.made

theorem sourced_pop {q : Pending} {rest : List Pending} (hs : mi.Sourced) (hio : mi.io = q :: rest) :
    ({ mi with io := rest } : NVMeMi).Sourced :=
  ⟨fun q' hq' => hs.answered q' (hio ▸ List.mem_cons_of_mem _ hq'), (only_pop hs.requests hio).2, hs.made⟩

theorem sourced_execute {lib : Libnvme} {errno : Int} (hs : mi.Sourced) (hmi : mi.execute cfg lib errno = some mi') :
    mi'.Sourced := by
  have honly : mi'.Only fun c => ∀ h ∈ c.ctrl?, Listed mi.made h := only_execute hs.requests hmi
  have hanswered : mi'.Answered := kept_answered.execute hs.answered hmi
  obtain ⟨ep, c, rest, -, hworker, rfl⟩ := execute_eq_some hmi
  refine ⟨hanswered, honly.imp fun c hc h hh => (hc h hh).append _, ?_⟩
  refine justified_append (fun before rest m hm h hh => (hm h hh).append _) hs.made fun m hm h hh => ?_
  refine hs.requests c (List.mem_append_right _ ?_) h ((made_request hm).ctrl? h hh)
  rw [hworker]
  exact List.mem_cons_self

end NVMeMi

/-! ## The drive -/

namespace NVMeDevice
variable {cfg : Config} {d d' : NVMeDevice} {c : Command} {r : Reply}

/-- So has the handle of the drive, once a scan has found a controller. -/
structure Sourced (d : NVMeDevice) : Prop where
  ctrl : d.Unscanned ∨ NVMeMi.Listed d.intf.made d.ctrl
  intf : d.intf.Sourced

theorem sourced_call (hs : d.Sourced) (hc : ∀ h ∈ c.ctrl?, NVMeMi.Listed d.intf.made h)
    (hscan : d.Unscanned → c = .scan) : (d.call cfg c).Sourced := by
  refine ⟨?_, NVMeMi.sourced_submit hs.intf hc⟩
  have hmade : (d.call cfg c).intf.made = d.intf.made := NVMeMi.made_submit c
  rw [hmade]
  refine hs.ctrl.imp_left fun hunscanned => ?_
  obtain rfl := hscan hunscanned
  exact unscanned_call hunscanned

theorem sourced_tick (hs : d.Sourced) (hctrl : NVMeMi.Listed d.intf.made d.ctrl) : (d.tick cfg).Sourced := by
  have hcall : ∀ {d : NVMeDevice} {c : Command}, d.intf.Sourced → NVMeMi.Listed d.intf.made d.ctrl →
      (∀ h ∈ c.ctrl?, h = d.ctrl) → (d.call cfg c).intf.Sourced ∧
        NVMeMi.Listed (d.call cfg c).intf.made (d.call cfg c).ctrl := by
    intro d c hintf hctrl hc
    have hmade : (d.call cfg c).intf.made = d.intf.made := NVMeMi.made_submit c
    refine ⟨NVMeMi.sourced_submit hintf fun h hh => hc h hh ▸ hctrl, ?_⟩
    rw [hmade]
    exact hctrl
  unfold tick
  split
  · obtain ⟨hintf, hlisted⟩ := hcall (c := .scan) hs.intf hctrl nofun
    exact ⟨.inr hlisted, hintf⟩
  · split
    · obtain ⟨hintf, hlisted⟩ := hcall (c := .sanitizeLog d.ctrl) hs.intf hctrl fun h hh => (Option.some.inj hh).symm
      exact ⟨.inr hlisted, hintf⟩
    · obtain ⟨hintf, hlisted⟩ := hcall (c := .health) hs.intf hctrl nofun
      obtain ⟨hintf', hlisted'⟩ := hcall (d := d.call cfg .health) (c := .smart d.ctrl) hintf hlisted
        fun h hh => (Option.some.inj hh).symm
      exact ⟨.inr hlisted', hintf'⟩

/-- What a callback does to the handle: a scan that has found a controller sets it to the one that the next request is
made with, and else it stays. -/
theorem ctrl_of_handle (h : d.handle cfg c r = some d') :
    d'.ctrl = d.ctrl ∧ (c = .scan → d.follow c r = .nothing) ∨ c = .scan ∧ Process.usesCallback d c r = some d'.ctrl := by
  cases c with
  | scan =>
      obtain rfl := Option.some.inj h
      unfold scanned follow Process.usesCallback
      cases hec : r.ec.isError with
      | true => exact .inl ⟨rfl, fun _ => rfl⟩
      | false =>
          cases hlast : r.payload.ctrlList.getLast? with
          | none => exact .inl ⟨rfl, fun _ => rfl⟩
          | some ctrl => exact .inr ⟨rfl, rfl⟩
  | identify | portInformation | health | smart | sanitizeLog | sanitize =>
      exact .inl ⟨(ctrl_handle h).resolve_right fun h' => Command.noConfusion h'.1, nofun⟩

theorem made_follow {f : Follow} {mi : NVMeMi} : (f.intf cfg mi).made = mi.made := by
  cases f with
  | request c => exact NVMeMi.made_submit c
  | wait | nothing => rfl

/-- The oldest callback: a scan brings handles that it has found, and an identify is made again with the handle of the
drive. -/
theorem sourced_handle {q : Pending} {rest : List Pending} (hs : d.Sourced) (hio : d.intf.io = q :: rest)
    (h : ({ d with intf := { d.intf with io := rest } } : NVMeDevice).handle cfg q.command q.reply = some d') :
    d'.Sourced := by
  have hpopped := NVMeMi.sourced_pop hs.intf hio
  have hq : q ∈ d.intf.io := hio ▸ List.mem_cons_self
  -- a drive that is not scanned has only scans
  have hlisted : q.command ≠ .scan → NVMeMi.Listed d.intf.made d.ctrl := fun hne =>
    hs.ctrl.resolve_left fun hunscanned => hne (NVMeMi.only_pop hunscanned.requests hio).1
  have huses : ∀ ctrl ∈ Process.usesCallback { d with intf := { d.intf with io := rest } } q.command q.reply,
      NVMeMi.Listed d.intf.made ctrl := by
    intro ctrl hctrl
    unfold Process.usesCallback at hctrl
    split at hctrl
    · next hscan =>
        split at hctrl
        · cases hctrl
        · next hec =>
            have htold : Tells d.intf.made q.command q.reply := hs.intf.answered q hq (Bool.eq_false_iff.mpr hec)
            rw [hscan] at htold
            exact htold ctrl (List.mem_of_getLast? hctrl)
    · next hidentify =>
        split at hctrl
        · obtain rfl := Option.some.inj hctrl
          exact hlisted (by rw [hidentify]; exact nofun)
        · cases hctrl
    · cases hctrl
  obtain ⟨htimer, hintf⟩ := handle_follow h
  have hmade : d'.intf.made = d.intf.made := by
    rw [hintf]
    exact made_follow
  refine ⟨?_, ?_⟩
  · rw [hmade]
    rcases ctrl_of_handle h with ⟨hctrl, hnothing⟩ | ⟨hscan, hctrl⟩
    · rcases hs.ctrl with hunscanned | hctrl'
      · have hscan : q.command = .scan := (NVMeMi.only_pop hunscanned.requests hio).1
        rw [hnothing hscan] at htimer hintf
        have hunrelated : q.command.Unrelated := hscan ▸ trivial
        have hmembers := sanitizeMembers_replied hunrelated (handle_view h)
        refine .inl ⟨?_, ?_, ?_⟩
        · rw [htimer]
          exact hunscanned.timer
        · exact (congrArg SanitizeMembers.sanitizeCapability hmembers).trans hunscanned.methods
        · rw [hintf]
          exact (NVMeMi.only_pop hunscanned.requests hio).2
      · rw [hctrl]
        exact .inr hctrl'
    · exact .inr (huses _ hctrl)
  · rw [hintf]
    cases hfollow : follow { d with intf := { d.intf with io := rest } } q.command q.reply with
    | request c' => exact NVMeMi.sourced_submit hpopped fun ctrl hctrl => huses ctrl (Process.uses_follow hfollow ctrl hctrl)
    | wait | nothing => exact hpopped

end NVMeDevice

/-! ## Runs -/

namespace Process
variable {cfg : Config} {p p' : Process} {e : Event}

theorem sourced_of_turn (hs : p.drive.Sourced) (hturn : Turn cfg p e p') : p'.drive.Sourced := by
  cases hturn with
  | initializeDrive =>
      refine NVMeDevice.sourced_call ⟨hs.ctrl.imp_left fun hunscanned => ?_, hs.intf⟩ nofun fun _ => rfl
      exact ⟨hunscanned.timer, hunscanned.methods, hunscanned.requests⟩
  | @inventory form driveAssoc =>
      refine ⟨?_, ?_⟩
      · rw [NVMeDevice.intf_inventory, NVMeDevice.ctrl_inventory]
        exact hs.ctrl.imp_left fun hunscanned => NVMeDevice.unscanned_inventory hunscanned form driveAssoc
      · rw [NVMeDevice.intf_inventory]
        exact hs.intf
  | writeFault =>
      exact ⟨hs.ctrl.imp_left fun hunscanned => ⟨hunscanned.timer, hunscanned.methods, hunscanned.requests⟩, hs.intf⟩
  | refused => exact hs
  | erased herased =>
      obtain ⟨-, ⟨-, rfl⟩ | ⟨hcap, rfl⟩⟩ := NVMeDevice.erase_eq_ok herased
      · exact hs
      · -- a method is published, so a scan has found a controller
        have hscanned : ¬ p.drive.Unscanned := fun hunscanned => List.not_mem_nil (hunscanned.methods ▸ hcap)
        refine NVMeDevice.sourced_call hs (fun h hh => ?_) fun hunscanned => absurd hunscanned hscanned
        obtain rfl := Option.some.inj hh
        exact hs.ctrl.resolve_left hscanned
  | expire ht =>
      refine ⟨hs.ctrl.imp_left fun hunscanned => ⟨?_, hunscanned.methods, hunscanned.requests⟩, hs.intf⟩
      exact (SteadyTimer.handlers_expire ht).trans hunscanned.timer
  | tick ht =>
      have hctrl : NVMeMi.Listed p.drive.intf.made p.drive.ctrl := hs.ctrl.resolve_left fun hunscanned => by
        have hhandlers := SteadyTimer.handlers_take ht
        rw [hunscanned.timer] at hhandlers
        cases hhandlers
      exact NVMeDevice.sourced_tick ⟨.inr hctrl, hs.intf⟩ hctrl
  | execute hmi =>
      refine ⟨hs.ctrl.imp (fun hunscanned => ?_) fun hctrl => ?_, NVMeMi.sourced_execute hs.intf hmi⟩
      · exact ⟨hunscanned.timer, hunscanned.methods, NVMeMi.only_execute hunscanned.requests hmi⟩
      · obtain ⟨ep, c, rest, -, -, rfl⟩ := NVMeMi.execute_eq_some hmi
        exact hctrl.append _
  | deliver hio hhandle => exact NVMeDevice.sourced_handle hs hio hhandle
  | abort hio =>
      refine ⟨hs.ctrl.imp_left fun hunscanned => ?_, NVMeMi.sourced_pop hs.intf hio⟩
      exact ⟨hunscanned.timer, hunscanned.methods, (NVMeMi.only_pop hunscanned.requests hio).2⟩

/-- **Provenance of handles.** In every run every outstanding request, and every command that has been made, carries a
handle that an earlier scan of the same endpoint has found, or none: the handle that the constructor leaves
uninitialised reaches no request. -/
theorem listed_of_run {props : NvmeInterfaces} {u : Uninitialised} {eid : UInt8} {bus : UInt32} {path : String}
    {timeout : Option Nat} {es : List Event} (hmethods : props.sanitizeCapability = [])
    (hrun : Run (Step cfg) (start cfg props u eid bus path timeout) es p) :
    (∀ c ∈ p.drive.intf.outstanding, ∀ h ∈ c.ctrl?, ∃ s ∈ p.drive.intf.made, s.Lists h) ∧
      ∀ before m after, p.drive.intf.made = before ++ m :: after → ∀ h ∈ m.call.ctrl?, ∃ s ∈ before, s.Lists h := by
  have hstart : (start cfg props u eid bus path timeout).drive.Sourced := by
    have hmembers : (start cfg props u eid bus path timeout).drive.sanitizeMembers = _ :=
      DriveView.sanitizeMembers_markFunctional true
    have hcap := (congrArg SanitizeMembers.sanitizeCapability hmembers).trans hmethods
    exact ⟨.inl ⟨rfl, hcap, nofun⟩, nofun, nofun, justified_nil⟩
  have hs : p.drive.Sourced :=
    hrun.invariant (fun p => p.drive.Sourced) hstart fun s e s' hs h => sourced_of_turn hs (turn_of_step h).2
  exact ⟨hs.intf.requests, hs.intf.made⟩

/-- The theorem at a drive that is scanned and identified. -/
theorem listed_of_run_identified : ∃ p,
    Run (Step .standard) first
      [.initializeDrive, .execute (.ok { handles := [7] }) 0, .deliver, .execute (.status 3) 0] p ∧
      p.drive.intf.made.length = 2 ∧
      ∀ before m after, p.drive.intf.made = before ++ m :: after → ∀ h ∈ m.call.ctrl?, ∃ s ∈ before, s.Lists h := by
  have hrun : Run (Step .standard) first
      [.initializeDrive, .execute (.ok { handles := [7] }) 0, .deliver, .execute (.status 3) 0] _ :=
    Run.of_foldlM rfl
  exact ⟨_, hrun, rfl, (listed_of_run rfl hrun).2⟩

end Process
end NvmeManager
