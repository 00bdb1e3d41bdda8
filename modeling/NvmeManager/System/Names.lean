import Mathlib
import NvmeManager.Device.Entries
import NvmeManager.Device.Members
import NvmeManager.System.Manager
import NvmeManager.System.Observed

/-!
# The names of the drives

A drive is named by its EID: in its object path, and in the log entries it sends.

* `filename_append`, `driveName_injective` : the names in the paths of two EIDs are not the same;
* `Drives.Named` : every drive is constructed with the path of its EID, and no two have the same EID;
* `DriveView.Signed` : a drive keeps its path, and every entry it has sent names it; `signed_of_run`;
* `Manager.attributed_of_run` : two drives have two paths, and an entry is of one drive only.
-/

namespace NvmeManager

/-! ## Texts -/

theorem filename_append {p s : String} (h : '/' ∉ s.toList) : filename (p ++ s) = filename p ++ s := by
  have hall : ∀ c ∈ s.toList.reverse, decide (c ≠ '/') = true := by
    intro c hc
    rw [decide_eq_true_eq]
    rintro rfl
    exact h (List.mem_reverse.mp hc)
  unfold filename afterLast
  rw [String.toList_append, List.reverse_append, List.takeWhile_append_of_pos hall, List.reverse_append,
    List.reverse_reverse, String.ofList_append, String.ofList_toList]

theorem slash_notMem_toString (n : Nat) : '/' ∉ (toString n).toList := by
  change '/' ∉ (Nat.repr n).toList
  rw [Nat.repr_eq_ofList_toDigits, String.toList_ofList]
  intro hmem
  have hdigit : '/'.isDigit = true := Nat.isDigit_of_mem_toDigits (by decide) (by decide) hmem
  exact absurd hdigit (by decide)

theorem toString_injective {m n : Nat} (h : toString m = toString n) : m = n := Nat.repr_injective h

section
variable {cfg : Config} {eid eid' : UInt64}

theorem driveName_injective (h : filename (drivePath cfg eid) = filename (drivePath cfg eid')) : eid = eid' := by
  unfold drivePath at h
  rw [filename_append (slash_notMem_toString _), filename_append (slash_notMem_toString _)] at h
  exact UInt64.toNat_inj.mp (toString_injective ((String.append_right_inj _).mp h))

end

/-! ## The drives of the map -/

/-- Every drive has the path of its EID, and its own EID. -/
structure Drives.Named (cfg : Config) (s : Drives) : Prop where
  path : ∀ args ∈ s.created, ∃ eid : UInt64, args.eid = eid.toUInt8 ∧ args.path = drivePath cfg eid
  nodup : (s.created.map DriveArgs.eid).Nodup

theorem endpointArgs_path {cfg : Config} {data : DbusObject} {args : DriveArgs} (h : endpointArgs cfg data = .ok args) :
    ∃ eid : UInt64, args.eid = eid.toUInt8 ∧ args.path = drivePath cfg eid := by
  unfold endpointArgs at h
  cases hendpoint : readEndpoint data with
  | error err =>
      rw [hendpoint] at h
      cases h
  | ok found =>
      obtain ⟨eid, nvmeCap⟩ := found
      rw [hendpoint] at h
      change (readSocket data).bind _ = _ at h
      cases hsocket : readSocket data with
      | error err =>
          rw [hsocket] at h
          cases h
      | ok addr =>
          rw [hsocket] at h
          change (if nvmeCap = false then _ else _) = _ at h
          split at h
          · cases h
          · cases hbus : readI2CBus data with
            | error err =>
                rw [hbus] at h
                cases h
            | ok bus =>
                rw [hbus] at h
                cases h
                exact ⟨eid, rfl, rfl⟩

theorem named_handle {cfg : Config} {s s' : Drives} {mctpEndpoints : ManagedObjectType} (hs : s.Indexed)
    (hnamed : s.Named cfg) (h : handleMCTPEndpoints cfg s mctpEndpoints = some s') : s'.Named cfg := by
  have hinv : s'.Indexed ∧ s'.Named cfg := by
    refine (Run.of_foldlM h).invariant (fun t => t.Indexed ∧ t.Named cfg) ⟨hs, hnamed⟩ ?_
    rintro t object t' ⟨hindexed, hnamed⟩ hstep
    unfold endpointStep at hstep
    split at hstep
    · next args hargs =>
        obtain rfl := Option.some.inj hstep
        refine ⟨indexed_add hindexed args, ?_, ?_⟩
        · rw [created_add hindexed]
          unfold keep
          split
          · exact hnamed.path
          · intro args' hmem
            rcases List.mem_append.mp hmem with hold | hnew
            · exact hnamed.path args' hold
            · obtain rfl := List.mem_singleton.mp hnew
              exact endpointArgs_path hargs
        · rw [created_add hindexed]
          exact nodup_keep hnamed.nodup
    · obtain rfl := Option.some.inj hstep
      exact ⟨hindexed, hnamed⟩
    · cases hstep
  exact hinv.2

/-- Two places with one name are the same. -/
theorem Drives.Named.place {cfg : Config} {s : Drives} (h : s.Named cfg) {i j : Nat} {args args' : DriveArgs}
    (hi : s.created[i]? = some args) (hj : s.created[j]? = some args')
    (hname : filename args.path = filename args'.path) : i = j := by
  obtain ⟨eid, heid, hpath⟩ := h.path args (List.mem_of_getElem? hi)
  obtain ⟨eid', heid', hpath'⟩ := h.path args' (List.mem_of_getElem? hj)
  rw [hpath, hpath'] at hname
  obtain rfl := driveName_injective hname
  obtain ⟨hlt, rfl⟩ := List.getElem?_eq_some_iff.mp hi
  obtain ⟨hlt', rfl⟩ := List.getElem?_eq_some_iff.mp hj
  have hlength : i < (s.created.map DriveArgs.eid).length := by simpa using hlt
  have hlength' : j < (s.created.map DriveArgs.eid).length := by simpa using hlt'
  have hsame : (s.created.map DriveArgs.eid)[i] = (s.created.map DriveArgs.eid)[j] := by
    rw [List.getElem_map, List.getElem_map, heid, heid']
  exact (h.nodup.getElem_inj_iff).mp hsame

/-! ## The entries of a drive -/

/-- The entry names the drive. -/
structure LogEntry.Names (e : LogEntry) (driveIndex : String) : Prop where
  origin : e.originOfCondition = redfishDrivePathPrefix ++ driveIndex
  args : ∃ text, e.messageArgs = redfishDriveName ++ driveIndex ++ "," ++ text

namespace DriveView
variable {cfg : Config} {v v' : DriveView} {path : String}

/-- A drive with its path and its name, that are in every entry it has sent. -/
structure Signed (v : DriveView) (path : String) : Prop where
  objPath : v.objPath = path
  driveIndex : v.driveIndex = filename path
  logs : ∀ e ∈ v.logs, e.Names (filename path)

theorem Signed.of_eq (h : v.Signed path) (hpath : v'.objPath = v.objPath) (hindex : v'.driveIndex = v.driveIndex)
    (hlogs : v'.logs = v.logs) : v'.Signed path :=
  ⟨hpath.trans h.objPath, hindex.trans h.driveIndex, hlogs ▸ h.logs⟩

theorem Signed.log (h : v.Signed path) (hpath : v'.objPath = v.objPath) (hindex : v'.driveIndex = v.driveIndex)
    {entries : List LogEntry} (hlogs : v'.logs = v.logs ++ entries)
    (hentries : ∀ e ∈ entries, e.Names v.driveIndex) : v'.Signed path := by
  refine ⟨hpath.trans h.objPath, hindex.trans h.driveIndex, ?_⟩
  rw [hlogs]
  intro e he
  rcases List.mem_append.mp he with hold | hnew
  · exact h.logs e hold
  · rw [← h.driveIndex]
    exact hentries e hnew

theorem names_resourceError {level : Level} {message resolution : String} :
    ∀ e ∈ v.resourceError level message resolution, e.Names v.driveIndex := by
  intro e he
  obtain rfl := List.mem_singleton.mp he
  exact ⟨rfl, message, rfl⟩

theorem signed_markFunctional (h : v.Signed path) (functional : Bool) : (v.markFunctional cfg functional).Signed path := by
  unfold markFunctional
  by_cases hsame : v.driveFunctional = functional
  · rw [if_neg (not_not_intro hsame)]
    exact h.of_eq rfl rfl rfl
  · rw [if_pos hsame]
    cases functional with
    | false => exact h.log rfl rfl rfl (names_resourceError (v := v))
    | true => exact h.of_eq rfl rfl rfl

theorem signed_smartUpdate (h : v.Signed path) (smart : List UInt8) : (v.smartUpdate cfg smart).Signed path := by
  have hcases : v.smartUpdate cfg smart = v ∨ _ := smartUpdate_cases smart
  rcases hcases with hsame | ⟨cw, status, hshown⟩
  · rw [hsame]
    exact h
  · rw [hshown]
    refine h.log rfl rfl (logs_generateRedfishEventbySmart cw) fun e he => ?_
    obtain ⟨event, -, rfl⟩ := List.mem_map.mp he
    exact ⟨rfl, event.2.1, rfl⟩

theorem signed_replied {c : Command} {r : Reply} (h : v.Signed path) (hreplied : NVMeDevice.replied cfg v c r = some v') :
    v'.Signed path := by
  cases c with
  | scan =>
      obtain rfl := Option.some.inj hreplied
      exact h.of_eq rfl rfl rfl
  | identify | portInformation =>
      obtain rfl := Option.some.inj hreplied
      split
      · exact h
      · exact h.of_eq rfl rfl rfl
  | health =>
      obtain rfl := Option.some.inj hreplied
      split
      · exact h
      · unfold healthUpdate
        refine signed_markFunctional ?_ _
        exact h.of_eq rfl rfl rfl
  | smart ctrl =>
      obtain rfl := Option.some.inj hreplied
      split
      · exact h
      · exact signed_smartUpdate h _
  | sanitizeLog ctrl =>
      rcases NVMeDevice.replied_sanitizeLog_cases hreplied with ⟨-, rfl⟩ | ⟨-, ⟨-, rfl⟩ | ⟨-, hpercent⟩⟩
      · exact h
      · unfold sanitizeEnded
        split
        · exact h.of_eq rfl rfl rfl
        · split
          · exact h.of_eq rfl rfl rfl
          · exact h
      · obtain ⟨_, _, -, rfl⟩ := updatePercent_eq_some hpercent
        exact h.of_eq rfl rfl rfl
  | sanitize ctrl type passes =>
      obtain rfl := Option.some.inj hreplied
      split
      · exact h.of_eq rfl rfl rfl
      · exact h.of_eq rfl rfl rfl

end DriveView

namespace Process
variable {cfg : Config} {p p' : Process} {e : Event} {path : String}

theorem signed_of_turn (h : p.drive.toDriveView.Signed path) (hturn : Turn cfg p e p') :
    p'.drive.toDriveView.Signed path := by
  have hredraw := redraw_of_turn hturn
  generalize p'.drive.toDriveView = v at hredraw
  cases hredraw with
  | same | divided => exact h
  | initialized | inventory | writeFault => exact h.of_eq rfl rfl rfl
  | replied hio hreplied => exact DriveView.signed_replied h hreplied

theorem signed_of_run {props : NvmeInterfaces} {u : Uninitialised} {eid : UInt8} {bus : UInt32} {timeout : Option Nat}
    {es : List Event} (hrun : Run (Step cfg) (start cfg props u eid bus path timeout) es p) :
    p.drive.toDriveView.Signed path :=
  hrun.invariant (fun p => p.drive.toDriveView.Signed path) ⟨rfl, rfl, nofun⟩ fun _ _ _ h hstep =>
    signed_of_turn h (turn_of_step hstep).2

end Process

/-! ## All drives -/

namespace Manager
variable {cfg : Config} {m m' : Manager} {e : Event}

theorem named_of_step (hf : m.Formed) (hnamed : m.drives.Named cfg) (h : m.Step cfg e m') : m'.drives.Named cfg := by
  cases (turn_of_step h).2 with
  | added hs => exact named_handle hf.indexed hnamed hs
  | @initialized objData order last vs horder htrace =>
      have hdrives : (m.round cfg vs order).drives = m.drives :=
        List.foldlRecOn _ _ (motive := fun m'' : Manager => m''.drives = m.drives) rfl fun m'' h a _ => h
      exact hdrives ▸ hnamed
  | endpointsThrown | inventoryThrown | divided | drive | execute | deliver => exact hnamed

/-- **Attribution.** In every run two drives have two object paths and two names, and every log entry that a drive has
sent names it: no entry can be taken for one of another drive. -/
theorem attributed_of_run {es : List Event} (hrun : Run (Step cfg) init es m) {i j : Nat} {d d' : NVMeDevice}
    (hi : m.view i = some d) (hj : m.view j = some d') :
    (∀ entry ∈ d.logs, entry.Names (filename d.objPath)) ∧ (d.objPath = d'.objPath → i = j) ∧
      (filename d.objPath = filename d'.objPath → i = j) ∧
      ∀ entry ∈ d.logs, ∀ entry' ∈ d'.logs, entry.originOfCondition = entry'.originOfCondition → i = j := by
  have hinv : m.Formed ∧ m.drives.Named cfg :=
    hrun.invariant (fun m => m.Formed ∧ m.drives.Named cfg) ⟨formed_init, nofun, List.nodup_nil⟩
      fun s e s' hs h => ⟨formed_of_step hs.1 h, named_of_step hs.1 hs.2 h⟩
  have hlife : ∀ {i : Nat} {d : NVMeDevice}, m.view i = some d →
      ∃ args, m.drives.created[i]? = some args ∧ d.toDriveView.Signed args.path := by
    intro i d hi
    have hlt : i < m.members.length := by
      obtain ⟨a, ha, -⟩ := Option.map_eq_some_iff.mp hi
      exact (List.getElem?_eq_some_iff.mp ha).1
    obtain ⟨args, k, ds, p, hlife⟩ := exists_life hrun hlt
    obtain rfl : p.drive = d := Option.some.inj (hlife.view.symm.trans hi)
    exact ⟨args, hlife.created, Process.signed_of_run hlife.run⟩
  obtain ⟨args, hargs, hsigned⟩ := hlife hi
  obtain ⟨args', hargs', hsigned'⟩ := hlife hj
  have hplace : filename d.objPath = filename d'.objPath → i = j := by
    intro hname
    rw [hsigned.objPath, hsigned'.objPath] at hname
    exact hinv.2.place hargs hargs' hname
  refine ⟨?_, fun hpath => hplace (congrArg filename hpath), hplace, fun entry hentry entry' hentry' horigin => ?_⟩
  · rw [hsigned.objPath]
    exact hsigned.logs
  · rw [(hsigned.logs entry hentry).origin, (hsigned'.logs entry' hentry').origin] at horigin
    exact hinv.2.place hargs hargs' ((String.append_right_inj _).mp horigin)

def endpointPair : ManagedObjectType :=
  endpointSnapshot.insert "/xyz/openbmc_project/mctp/0/12"
    ((FlatMap.empty.insert mctpEpInterface
      ((FlatMap.empty.insert "EID" (.uint64 12)).insert "SupportedMessageTypes" (.bytes [4]))).insert
        unixSocket (FlatMap.empty.insert "Address" (.bytes [0, 109])))

def broken : Libnvme := .ok { handles := [7], data := zeros 384, port := ⟨1, 4, 8, 4, 4⟩, health := ⟨0, 3⟩ }

/-- Both drives are initialized, and the health of the first one is read. -/
def brokenRun : List Event :=
  [.endpoints endpointPair fun _ => firstConstruction, .inventory .empty [0, 1]] ++
    (List.replicate 6 [.execute broken 0, .deliver]).flatten ++ [.expire 0, .tick 0, .execute broken 0, .deliver]

/-- The theorem at the two drives, one of which has sent an entry. -/
theorem attributed_of_run_broken : ∃ m d d', Run (Step .standard) init brokenRun m ∧ m.view 0 = some d ∧
    m.view 1 = some d' ∧ d.logs ≠ [] ∧ (∀ entry ∈ d.logs, entry.Names (filename d.objPath)) ∧
    filename d.objPath ≠ filename d'.objPath := by
  have hfacts : (brokenRun.foldlM (fun (m : Manager) e => m.next .standard e) init).any (fun m =>
      (m.view 0).any (fun d => decide (d.logs ≠ [])) && (m.view 1).isSome) = true := by
    decide +kernel
  obtain ⟨m, hm, hviews⟩ := (Option.any_eq_true _ _).mp hfacts
  obtain ⟨hfirst, hsecond⟩ := Bool.and_eq_true_iff.mp hviews
  obtain ⟨d, hd, hlogs⟩ := (Option.any_eq_true _ _).mp hfirst
  obtain ⟨d', hd'⟩ := Option.isSome_iff_exists.mp hsecond
  have hrun : Run (Step .standard) init brokenRun m := Run.of_foldlM hm
  obtain ⟨hnames, -, hdiffer, -⟩ := attributed_of_run hrun hd hd'
  exact ⟨m, d, d', hrun, hd, hd', of_decide_eq_true hlogs, hnames, fun heq => absurd (hdiffer heq) (by decide)⟩

end Manager
end NvmeManager
