import NvmeManager.Device.Identity
import NvmeManager.System.Ledger
import NvmeManager.System.Names
import NvmeManager.System.Published

/-!
# Every drive shows its own controller

Behind each EID there is a controller, and libnvme reads what that one says.

* `Observed.exists_run` : a run of a drive can be observed;
* `Manager.member_of_step` : what a step does to the commands of a drive: none, or the worker has executed its request;
* `Manager.Faces` : libnvme answers each request as the controller behind the EID of its drive; `Genuine` : so have all
  commands of all drives been answered;
* `Identity` : what is shown of an identify; `Told.identity_inventory` : it is that of the latest answer;
* `Manager.genuine_of_run` : a drive keeps its identity, or shows that of the controller behind its EID.
-/

namespace NvmeManager

theorem Observed.exists_run {γ : Type} (see : γ → Pending → γ) {cfg : Config} {p p' : Process} {es : List Event}
    (seen : γ) (hrun : Run (Process.Step cfg) p es p') :
    ∃ o : Observed γ, Run (Observed.Step see cfg) ⟨p, seen⟩ es o ∧ o.proc = p' := by
  refine hrun.lockstep (fun (p : Process) (o : Observed γ) => o.proc = p) rfl ?_
  rintro p e p' o rfl hstep
  refine ⟨⟨p', o.learnt see e⟩, ?_, rfl⟩
  unfold Observed.Step Observed.next
  rw [show o.proc.next cfg e = some p' from hstep]
  rfl

/-! ## The commands of a drive -/

theorem NVMeMi.made_submits {cfg : Config} (mi : NVMeMi) (cs : List Command) : (mi.submits cfg cs).made = mi.made := by
  induction cs generalizing mi with
  | nil => rfl
  | cons c cs ih =>
      change ((mi.submit cfg c).submits cfg cs).made = mi.made
      rw [ih, made_submit]

namespace Manager
variable {cfg : Config} {m m' : Manager} {e : Event}

theorem member_settle {i j : Nat} {d : NVMeDevice} {b : Member} (hb : (m.settle j d).members[i]? = some b) :
    m.members[i]? = some b ∨ i = j ∧ b = d.settled := by
  by_cases hij : j = i
  · subst hij
    have hlt : j < m.members.length := by
      have := (List.getElem?_eq_some_iff.mp hb).1
      rwa [length_settle] at this
    unfold settle at hb
    rw [List.getElem?_set_self hlt] at hb
    exact .inr ⟨rfl, (Option.some.inj hb).symm⟩
  · unfold settle at hb
    rw [List.getElem?_set_ne hij] at hb
    exact .inl hb

theorem member_foldl_settle {l : List (Nat × NVMeDevice)} {i : Nat} {b : Member}
    (hb : (l.foldl (fun m a => m.settle a.1 a.2) m).members[i]? = some b) :
    m.members[i]? = some b ∨ ∃ d, (i, d) ∈ l ∧ b = d.settled := by
  induction l generalizing m with
  | nil => exact .inl hb
  | cons a l ih =>
      rcases ih hb with hold | ⟨d, hd, hsame⟩
      · rcases member_settle hold with hold | ⟨rfl, hsame⟩
        · exact .inl hold
        · exact .inr ⟨a.2, List.mem_cons_self, hsame⟩
      · exact .inr ⟨d, List.mem_cons_of_mem _ hd, hsame⟩

/-- What a step does to the commands of a drive that was there: the worker has executed its request, or they stay. -/
theorem member_of_step (hf : m.Formed) (h : m.Step cfg e m') {i : Nat} (hi : i < m.members.length) {b' : Member}
    (hb' : m'.members[i]? = some b') : ∃ b, m.members[i]? = some b ∧
      (b'.drive.intf.made = b.drive.intf.made ∨
        ∃ lib errno c rest ep, e = .execute lib errno ∧ m.workerIO = (i, c) :: rest ∧
          b'.drive.intf.made = b.drive.intf.made ++ ((c.request cfg).executed lib errno ep).made) := by
  cases (turn_of_step h).2 with
  | @added mctpEndpoints made s hs =>
      unfold construct at hb'
      rw [List.getElem?_append_left hi] at hb'
      exact ⟨b', hb', .inl rfl⟩
  | @initialized objData order last vs horder htrace =>
      rcases member_foldl_settle hb' with hold | ⟨d, hd, rfl⟩
      · exact ⟨b', hold, .inl rfl⟩
      · -- the drive at a place is visited once
        have hlt : ∀ j ∈ order, j < m.members.length := fun j hj => ((hf.order horder).2 j).mp hj
        obtain ⟨hfst, hmem⟩ := zip_visited hlt fun d => (d.visitAll vs).initializeDrive cfg
        have hb : m.members[i]? = some m.members[i] := List.getElem?_eq_getElem hi
        have hvisited := hmem i _ (((hf.order horder).2 i).mpr hi) hb
        have hnodup := (hf.order horder).1
        rw [← hfst] at hnodup
        obtain rfl := (Prod.mk.inj (List.inj_on_of_nodup_map hnodup hd hvisited rfl)).2
        refine ⟨_, hb, .inl ?_⟩
        change ((m.members[i].drive.visitAll vs).intf.submit cfg .scan).made = _
        rw [NVMeMi.made_submit, NVMeDevice.intf_visitAll]
  | endpointsThrown | inventoryThrown | divided => exact ⟨b', hb', .inl rfl⟩
  | @drive e j e' a p he ha hstep =>
      rcases member_settle hb' with hold | ⟨rfl, rfl⟩
      · exact ⟨b', hold, .inl rfl⟩
      · refine ⟨a, ha, .inl ?_⟩
        have hexchange := Process.exchange_of_turn (Process.turn_of_step hstep).2
        change p.drive.intf.made = a.drive.intf.made
        generalize p.drive.intf = mi at hexchange
        cases hexchange with
        | made => exact NVMeMi.made_submits _ _
        | executed => cases e <;> cases he
        | handled => cases e <;> cases he
  | @execute lib errno j c rest a mi hworker ha hmi =>
      rcases member_settle hb' with hold | ⟨rfl, rfl⟩
      · exact ⟨b', hold, .inl rfl⟩
      · obtain ⟨ep, c', rest', -, hqueue, rfl⟩ := NVMeMi.execute_eq_some hmi
        obtain ⟨rfl, rfl⟩ := List.cons.inj hqueue
        exact ⟨a, ha, .inr ⟨lib, errno, c, rest, ep, rfl, hworker, rfl⟩⟩
  | @deliver j q rest a d hio ha hhandle =>
      rcases member_settle hb' with hold | ⟨rfl, rfl⟩
      · exact ⟨b', hold, .inl rfl⟩
      · refine ⟨a, ha, .inl ?_⟩
        change d.intf.made = a.drive.intf.made
        rw [(NVMeDevice.handle_follow hhandle).2, ← Process.submits_requests, NVMeMi.made_submits]

theorem made_of_new (hf : m.Formed) (h : m.Step cfg e m') {i : Nat} (hold : m.members.length ≤ i) {b' : Member}
    (hb' : m'.members[i]? = some b') : b'.drive.intf.made = [] := by
  obtain ⟨k, args, -, hview⟩ := constructed_of_step hf h hold (List.getElem?_eq_some_iff.mp hb').1
  unfold view at hview
  rw [hb'] at hview
  have hmade := congrArg (fun d : NVMeDevice => d.intf.made) (Option.some.inj hview)
  exact hmade

/-! ## The world -/

/-- The request at the head of the queue is answered as the controller behind the EID of its drive does. -/
def Faces (world : UInt8 → Controller) (m : Manager) : Event → Prop
  | .execute lib _ => ∀ i c rest args, m.workerIO = (i, c) :: rest → m.drives.created[i]? = some args →
      lib.Reads (world args.eid)
  | _ => True

/-- So have all commands been answered. -/
def Genuine (world : UInt8 → Controller) (m : Manager) : Prop :=
  ∀ (i : Nat) (b : Member) (args : DriveArgs), m.members[i]? = some b → m.drives.created[i]? = some args →
    ∀ command ∈ b.drive.intf.made, command.Reads (world args.eid)

theorem genuine_init (world : UInt8 → Controller) : init.Genuine world := fun _ _ _ hb => by cases hb

theorem genuine_of_step {world : UInt8 → Controller} (hlen : cfg.readLength = 0 ∨ 332 ≤ cfg.readLength) (hf : m.Formed)
    (hg : m.Genuine world) (hfaces : m.Faces world e) (h : m.Step cfg e m') : m'.Genuine world := by
  intro i b' args hb' hargs command hcommand
  rcases Nat.lt_or_ge i m.members.length with hi | hold
  · have hargs' : m.drives.created[i]? = some args := by
      obtain ⟨rest, hrest⟩ := created_of_step hf h
      rw [← hrest, List.getElem?_append_left (hf.length ▸ hi)] at hargs
      exact hargs
    obtain ⟨b, hb, hsame | ⟨lib, errno, c, rest, ep, rfl, hworker, hmade⟩⟩ := member_of_step hf h hi hb'
    · rw [hsame] at hcommand
      exact hg i b args hb hargs' command hcommand
    · rw [hmade] at hcommand
      rcases List.mem_append.mp hcommand with hbefore | hnew
      · exact hg i b args hb hargs' command hbefore
      · exact reads_of_executed (hfaces i c rest args hworker hargs') hlen hnew
  · rw [made_of_new hf h hold hb'] at hcommand
    cases hcommand

end Manager

/-! ## Identities -/

/-- What is shown of an identify. -/
structure Identity where
  manufacturer : String
  serialNumber : List UInt8
  model : List UInt8
  version : List UInt8
  capacity : UInt64
  sanitizeCapability : List EraseMethod

def Inventory.identity (i : Inventory) : Identity :=
  ⟨i.manufacturer, i.serialNumber, i.model, i.version, i.capacity, i.sanitizeCapability⟩

def IdCtrl.identity (id : IdCtrl) : Identity :=
  ⟨getManufacture id.vid, stripString id.sn, stripString id.mn, id.fr, id.tnvmcap, sanitizeMethods id.sanicap⟩

def Controller.identity (x : Controller) : Identity :=
  ⟨getManufacture x.vid, x.serial.text, x.model.text, x.version, x.capacity, sanitizeMethods x.sanicap⟩

theorem Controller.identity_parse (x : Controller) : (IdCtrl.parse x.data).identity = x.identity := by
  rw [x.parse_data]
  unfold IdCtrl.identity Controller.identity
  rw [x.serial.stripString_bytes, x.model.stripString_bytes]

namespace Told
variable {cfg : Config} {t : Told} {unanswered : Inventory}

theorem identity_inventory : (t.inventory unanswered).identity = t.identify.elim unanswered.identity IdCtrl.identity := by
  unfold inventory
  cases t.identify with
  | none => rfl
  | some id => rfl

theorem identify_see {q : Pending} (h : t.identify.isSome = true) : (t.see q).identify.isSome = true := by
  unfold see
  split
  · exact h
  · split
    · exact h
    · rfl
  · split
    · exact h
    · exact h
  · split
    · exact h
    · exact h
  all_goals exact h

theorem identify_of_run {o o' : Observed Told} {es : List Event} (hrun : Run (Observed.Step see cfg) o es o')
    (h : o.seen.identify.isSome = true) : o'.seen.identify.isSome = true := by
  refine hrun.invariant (fun o : Observed Told => o.seen.identify.isSome = true) h fun o e o' h hstep => ?_
  obtain ⟨p, -, rfl⟩ := hstep.eq
  change (o.learnt see e).identify.isSome = true
  by_cases hdeliver : e = .deliver
  · subst hdeliver
    cases hio : o.proc.drive.intf.io with
    | nil =>
        unfold Observed.learnt
        rw [hio]
        exact h
    | cons q rest =>
        rw [Observed.learnt_deliver hio]
        exact identify_see h
  · rw [Observed.learnt_of_ne hdeliver]
    exact h

end Told

/-! ## All drives -/

namespace Manager
variable {cfg : Config} {m m' : Manager}

theorem Life.run_later {es es' : List Event} {i : Nat} {args : DriveArgs} {k : Construction}
    {ds : List NvmeManager.Event} {p : Process} (hf : m.Formed) (hlife : Life cfg es m i args k ds p)
    (hlater : Run (Step cfg) m es' m') :
    ∃ ds' p', Run (Process.Step cfg) p ds' p' ∧ Life cfg (es ++ es') m' i args k (ds ++ ds') p' := by
  induction hlater with
  | nil => exact ⟨[], p, .nil, by rwa [List.append_nil, List.append_nil]⟩
  | @snoc es' m₁ m₂ e hlater h ih =>
      obtain ⟨ds', p', hrun, hlife'⟩ := ih
      have hf' : m₁.Formed := hlater.invariant Formed hf fun _ _ _ => formed_of_step
      obtain ⟨ds₂, p₂, hrun₂, hlife₂, -⟩ := hlife'.step hf' h
      rw [List.append_assoc, List.append_assoc] at hlife₂
      exact ⟨ds' ++ ds₂, p₂, hrun.append hrun₂, hlife₂⟩

/-- **Genuineness.** Let libnvme answer the requests of each drive as the controller behind its EID does, with any errors,
and let the option `identifyRspLength` ask for all the data or for the fields. From every reachable state every run of all
drives leaves each drive with the path of its EID, and with the identity that it had, or that of the controller behind
this EID: the answer of one controller is never shown for another. -/
theorem genuine_of_run {world : UInt8 → Controller} {es es' : List Event}
    (hlen : cfg.identifyRspLength.toNat % 65536 = 0 ∨ 332 ≤ cfg.identifyRspLength.toNat % 65536)
    (hrun : Run (guarded (Faces world) (Step cfg)) init es m)
    (hlater : Run (guarded (Faces world) (Step cfg)) m es' m') {i : Nat} {d d' : NVMeDevice}
    (hd : m.view i = some d) (hd' : m'.view i = some d') :
    ∃ eid : UInt64, d'.objPath = drivePath cfg eid ∧ (d'.props.inventory.identity = d.props.inventory.identity ∨
      d'.props.inventory.identity = (world eid.toUInt8).identity) := by
  have hinv : (m'.Formed ∧ m'.drives.Named cfg) ∧ m'.Genuine world := by
    refine (hrun.append hlater).guarded_invariant
      (fun m : Manager => (m.Formed ∧ m.drives.Named cfg) ∧ m.Genuine world)
      ⟨⟨formed_init, nofun, List.nodup_nil⟩, genuine_init world⟩ ?_
    rintro m e m' ⟨⟨hf, hnamed⟩, hg⟩ hfaces h
    exact ⟨⟨formed_of_step hf h, named_of_step hf hnamed h⟩, genuine_of_step hlen hf hg hfaces h⟩
  obtain ⟨⟨-, hnamed⟩, hgenuine⟩ := hinv
  -- the run of the drive, before and after
  obtain ⟨b, hb, rfl⟩ := Option.map_eq_some_iff.mp hd
  obtain ⟨args, k, ds, p, hlife⟩ := exists_life hrun.of_guarded (List.getElem?_eq_some_iff.mp hb).1
  obtain ⟨ds', p', hafter, hlife'⟩ := hlife.run_later (formed_of_run hrun.of_guarded) hlater.of_guarded
  have hdrive : p.drive = _ := Option.some.inj (hlife.view.symm.trans hd)
  obtain rfl : p'.drive = d' := Option.some.inj (hlife'.view.symm.trans hd')
  obtain ⟨eid, heid, hpath⟩ := hnamed.path args (List.mem_of_getElem? hlife'.created)
  refine ⟨eid, ((Process.signed_of_run hlife'.run).objPath).trans hpath, ?_⟩
  -- what it is told
  obtain ⟨o, hseen, rfl⟩ := Observed.exists_run Told.see Told.init hlife.run
  obtain ⟨o', hseen', rfl⟩ := Observed.exists_run Told.see o.seen hafter
  have htold := Told.truthful_of_run hseen
  have htold' := Told.truthful_of_run (hseen.append hseen')
  rw [← hdrive, htold.shows.inventory, htold'.shows.inventory, Told.identity_inventory, Told.identity_inventory]
  cases hidentify : o'.seen.identify with
  | none =>
      cases hbefore : o.seen.identify with
      | none => exact .inl rfl
      | some id =>
          have hsome := Told.identify_of_run hseen' (by rw [hbefore]; rfl)
          rw [hidentify] at hsome
          cases hsome
  | some id =>
      obtain ⟨command, hmem, hcall, hrc, rfl⟩ := htold'.said.identify id hidentify
      obtain ⟨b', hb', hsame⟩ := Option.map_eq_some_iff.mp hlife'.view
      have hmade : o'.proc.drive.intf.made = b'.drive.intf.made := by rw [← hsame]; rfl
      rw [hmade] at hmem
      have hparse := hgenuine i b' args hb' hlife'.created command hmem hcall hrc
      refine .inr ?_
      change (IdCtrl.parse (command.write .null).bytes).identity = _
      rw [hparse, Controller.identity_parse, heid]

def firstController : Controller where
  vid := 0x144d
  serial := ⟨[0x53, 0x31], by decide, by decide⟩
  model := ⟨[], by decide, by decide⟩
  version := [0x31, 0, 0, 0, 0, 0, 0, 0]
  version_length := rfl
  capacity := 4096
  capacityHigh := 0
  sanicap := 2
  rest _ := 0

/-- A libnvme that finds one controller, and answers as this one does. -/
def answering (x : Controller) : Libnvme := .writing fun _ c =>
  match c with
  | .identifyPartial _ _ _ _ _ n => { data := x.data.take n }
  | _ => { handles := [7], data := x.data, port := ⟨1, 4, 8, 4, 4⟩, health := ⟨0x20, 3⟩ }

theorem answering_reads (x : Controller) : (answering x).Reads x := by
  intro k ctrl nsid cntid
  unfold answering
  generalize x.data = data
  exact ⟨fun _ => rfl, fun _ _ => rfl⟩

/-- The theorem at a drive that is initialized, and then shows who is behind its endpoint. -/
theorem genuine_of_run_first : ∃ m m' d d' eid,
    Run (guarded (Faces fun _ => firstController) (Step .standard)) init
      [.endpoints endpointSnapshot fun _ => firstConstruction, .inventory .empty [0]] m ∧
    Run (guarded (Faces fun _ => firstController) (Step .standard)) m
      (List.replicate 2 [Event.execute (answering firstController) 0, Event.deliver]).flatten m' ∧
    m.view 0 = some d ∧ m'.view 0 = some d' ∧ d'.objPath = drivePath .standard eid ∧
    d'.props.inventory.identity = firstController.identity := by
  have hfacts : ([Event.endpoints endpointSnapshot fun _ => firstConstruction, .inventory .empty [0]].foldlM
      (fun (m : Manager) e => m.next .standard e) init).any (fun (m : Manager) =>
        ((List.replicate 2 [Event.execute (answering firstController) 0, Event.deliver]).flatten.foldlM
          (fun (m : Manager) e => m.next .standard e) m).any fun (m' : Manager) =>
            (m.view 0).any fun d => (m'.view 0).any fun d' =>
              decide (d'.props.serialNumber ≠ d.props.serialNumber)) = true := by
    decide +kernel
  obtain ⟨m, hm, hlater⟩ := (Option.any_eq_true _ _).mp hfacts
  obtain ⟨m', hm', hviews⟩ := (Option.any_eq_true _ _).mp hlater
  obtain ⟨d, hd, hviews⟩ := (Option.any_eq_true _ _).mp hviews
  obtain ⟨d', hd', hserial⟩ := (Option.any_eq_true _ _).mp hviews
  have hrun : Run (guarded (Faces fun _ => firstController) (Step .standard)) init
      [.endpoints endpointSnapshot fun _ => firstConstruction, .inventory .empty [0]] m := by
    refine .guarded_of_forall (fun m e he => ?_) (Run.of_foldlM hm)
    rcases List.mem_pair.mp he with rfl | rfl
    · trivial
    · trivial
  have hrun' : Run (guarded (Faces fun _ => firstController) (Step .standard)) m
      (List.replicate 2 [Event.execute (answering firstController) 0, Event.deliver]).flatten m' := by
    refine .guarded_of_forall (fun m e he => ?_) (Run.of_foldlM hm')
    obtain ⟨turn, hturn, he⟩ := List.mem_flatten.mp he
    obtain rfl := (List.mem_replicate.mp hturn).2
    rcases List.mem_pair.mp he with rfl | rfl
    · exact fun _ _ _ _ _ _ => answering_reads _
    · trivial
  obtain ⟨eid, hpath, hkept | hshown⟩ := genuine_of_run (.inr (by decide)) hrun hrun' hd hd'
  · exact absurd (congrArg Identity.serialNumber hkept) (of_decide_eq_true hserial)
  · exact ⟨m, m', d, d', eid, hrun, hrun', hd, hd', hpath, hshown⟩

end Manager
end NvmeManager
