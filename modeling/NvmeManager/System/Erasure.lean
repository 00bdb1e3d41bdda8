import NvmeManager.System.Consent
import NvmeManager.System.Daemon
import NvmeManager.System.Ledger

/-!
# Erased drives

A drive loses its data only if a client has erased this drive.

* `Erasure` : what a sanitize asks of a controller; `EraseMethod.erasure` : what becomes of the method and the pass count
  of a client, the count narrowed to eight bits;
* `NVMeMi.erasures` : the sanitizes that have been made on an endpoint, and then those that wait for the worker;
* `Process.erasures_of_step` : a step adds the one that it has from its client, or none;
* `Manager.erasures_of_run` : so the events of a drive account for its sanitizes, in their order;
* `Daemon.manager_of_run` : the manager of the program runs with the events of the clients, and with those of the getters;
* `Daemon.erased_of_run` : so it is in every run of the program.
-/

namespace NvmeManager

/-- What a sanitize asks of a controller. -/
structure Erasure where
  sanact : Sanact
  owpass : UInt8
  nodas : Bool
  ovrpat : UInt32
  deriving DecidableEq, Repr

def NvmeCall.erasure? : NvmeCall → Option Erasure
  | .sanitizeNvm _ sanact owpass nodas ovrpat => some ⟨sanact, owpass, nodas, ovrpat⟩
  | _ => none

/-- What the controller is asked for when a client asks for a method with so many passes. Of the sixteen bits of the count
only the low eight are sent: 257 passes become one. -/
def EraseMethod.erasure (type : EraseMethod) (overwritePasses : UInt16) : Erasure :=
  match type with
  | overwrite => ⟨.startOverwrite, overwritePasses.toUInt8, true, ~~~0x04030201⟩
  | cryptoErase => ⟨.startCryptoErase, 0, true, 0⟩
  | blockErase => ⟨.startBlockErase, 0, true, 0⟩

def Command.erasure? : Command → Option Erasure
  | .sanitize _ type passes => some (type.erasure passes)
  | _ => none

/-- What an event of a client asks the controller for. -/
def Event.erasure? : Event → Option Erasure
  | .erase passes type => some (type.erasure passes)
  | _ => none

theorem erasure_sanitizeCall (ctrl : Ctrl) (type : EraseMethod) (passes : UInt16) :
    (sanitizeCall ctrl type passes).erasure? = some (type.erasure passes) := by
  cases type <;> rfl

theorem NvmeCall.erasure_eq_none {call : NvmeCall} (h : call.isSanitize = false) : call.erasure? = none := by
  cases call with
  | sanitizeNvm => cases h
  | _ => rfl

theorem Command.erasure_eq_none {c : Command} (h : c.isSanitize = false) : c.erasure? = none := by
  cases c with
  | sanitize => cases h
  | scan | identify | portInformation | health | smart | sanitizeLog => rfl

/-! ## Requests -/

theorem filterMap_cons_toList {α β : Type} (f : α → Option β) (a : α) (l : List α) :
    (a :: l).filterMap f = (f a).toList ++ l.filterMap f := by
  cases h : f a with
  | none => rw [List.filterMap_cons_none h, Option.toList_none, List.nil_append]
  | some b => rw [List.filterMap_cons_some h, Option.toList_some, List.singleton_append]

namespace NVMeMi
variable {cfg : Config} {mi mi' : NVMeMi}

/-- The sanitizes that have been made, and then those that wait for the worker, oldest first. -/
def erasures (mi : NVMeMi) : List Erasure :=
  mi.made.filterMap (fun m => m.call.erasure?) ++ mi.worker.filterMap Command.erasure?

/-- Without an endpoint a request comes to nothing. -/
theorem erasures_submit (c : Command) :
    (mi.submit cfg c).erasures.Sublist (mi.erasures ++ c.erasure?.toList) := by
  unfold erasures submit
  cases mi.nvmeEP with
  | none => exact List.sublist_append_left _ _
  | some ep =>
      dsimp only
      rw [List.filterMap_append, filterMap_cons_toList, List.filterMap_nil, List.append_nil, List.append_assoc]

theorem erasures_submits (cs : List Command) :
    (mi.submits cfg cs).erasures.Sublist (mi.erasures ++ cs.filterMap Command.erasure?) := by
  induction cs generalizing mi with
  | nil => exact List.sublist_append_left _ _
  | cons c cs ih =>
      have hrest : ((mi.submit cfg c).submits cfg cs).erasures.Sublist _ := ih
      refine hrest.trans ?_
      have hhead : List.Sublist ((mi.submit cfg c).erasures ++ _) _ :=
        (erasures_submit c).append_right (cs.filterMap Command.erasure?)
      rwa [List.append_assoc, ← filterMap_cons_toList] at hhead

/-- What waits is made: a sanitize makes one command, and no other request makes one. -/
theorem erasures_execute {lib : Libnvme} {errno : Int} (h : mi.execute cfg lib errno = some mi') :
    mi'.erasures = mi.erasures := by
  obtain ⟨ep, c, rest, -, hworker, rfl⟩ := execute_eq_some h
  have hmade : ((c.request cfg).executed lib errno ep).made.filterMap (fun m => m.call.erasure?) =
      c.erasure?.toList := by
    cases hc : c.isSanitize with
    | true =>
        cases c with
        | sanitize ctrl type passes =>
            obtain ⟨r, hone, -, -⟩ := @executed_sanitize cfg lib errno ep ctrl type passes
            rw [hone, filterMap_cons_toList, erasure_sanitizeCall]
            rfl
        | scan | identify | portInformation | health | smart | sanitizeLog => cases hc
    | false =>
        rw [Command.erasure_eq_none hc, Option.toList_none, List.filterMap_eq_nil_iff]
        intro m hm
        exact NvmeCall.erasure_eq_none ((made_request hm).isSanitize.trans hc)
  unfold erasures
  dsimp only
  rw [List.filterMap_append, hmade, hworker, filterMap_cons_toList, List.append_assoc]

end NVMeMi

/-! ## A drive -/

namespace Process
variable {cfg : Config} {p p' : Process} {e : Event}

theorem erasure_asks (p : Process) (e : Event) : ((p.asks e).filterMap Command.erasure?).Sublist e.erasure?.toList := by
  cases e with
  | erase passes type =>
      unfold asks
      dsimp only
      split
      · exact .refl _
      · exact List.nil_sublist _
  | tick =>
      unfold asks
      dsimp only
      split
      · exact List.nil_sublist _
      · split
        · exact List.nil_sublist _
        · exact List.nil_sublist _
  | deliver =>
      cases hio : p.drive.intf.io with
      | nil =>
          unfold asks
          dsimp only
          rw [hio]
          exact List.nil_sublist _
      | cons q rest =>
          rw [asks_deliver hio]
          cases hfollow : p.drive.follow q.command q.reply with
          | request c =>
              have hc := Command.erasure_eq_none (NVMeDevice.isSanitize_follow hfollow)
              rw [NVMeDevice.Follow.requests, List.filterMap_cons_none hc]
              exact List.nil_sublist _
          | wait | nothing => exact List.nil_sublist _
  | initializeDrive | inventory | writeFault | expire | execute => exact List.nil_sublist _

theorem erasures_of_step (h : p.Step cfg e p') :
    p'.drive.intf.erasures.Sublist (p.drive.intf.erasures ++ e.erasure?.toList) := by
  have hexchange := exchange_of_turn (turn_of_step h).2
  generalize p'.drive.intf = mi at hexchange
  cases hexchange with
  | made => exact (NVMeMi.erasures_submits _).trans ((erasure_asks p e).append_left _)
  | executed hmi =>
      rw [NVMeMi.erasures_execute hmi]
      exact List.sublist_append_left _ _
  | handled => exact (NVMeMi.erasures_submits _).trans ((erasure_asks p .deliver).append_left _)

theorem erasures_of_run {es : List Event} {p₀ : Process} (hrun : Run (Step cfg) p₀ es p) :
    p.drive.intf.erasures.Sublist (p₀.drive.intf.erasures ++ es.filterMap Event.erasure?) := by
  refine hrun.history_invariant
    (fun es p => p.drive.intf.erasures.Sublist (p₀.drive.intf.erasures ++ es.filterMap Event.erasure?))
    (List.sublist_append_left _ _) fun es p e p' ih h => ?_
  have hmore := (erasures_of_step h).trans (ih.append_right _)
  rwa [List.filterMap_append, filterMap_cons_toList, List.filterMap_nil, List.append_nil, ← List.append_assoc]

end Process

/-! ## All drives -/

namespace Manager
variable {cfg : Config} {m : Manager} {es : List Event}

/-- What an event of a client asks the controller of this drive for. -/
def Event.erasure? (i : Nat) : Event → Option Erasure
  | .erase j passes type => if j = i then some (type.erasure passes) else none
  | _ => none

theorem erasure_own (e : Event) (i : Nat) : (e.own i).filterMap NvmeManager.Event.erasure? = (e.erasure? i).toList := by
  cases e with
  | erase j passes type =>
      unfold Event.erasure?
      dsimp only
      by_cases hij : j = i
      · rw [if_pos hij, ← hij, own_self rfl]
        rfl
      · rw [if_neg hij, own_ne rfl hij]
        rfl
  | writeFault j | expire j | tick j =>
      by_cases hij : j = i
      · rw [← hij, own_self rfl]
        rfl
      · rw [own_ne rfl hij]
        rfl
  | endpoints | inventory | execute | deliver => rfl

theorem erasures_of_run (hrun : Run (Step cfg) init es m) {i : Nat} {d : NVMeDevice} (hd : m.view i = some d) :
    d.intf.erasures.Sublist (es.filterMap (Event.erasure? i)) := by
  have hi : i < m.members.length := by
    obtain ⟨b, hb, -⟩ := Option.map_eq_some_iff.mp hd
    exact (List.getElem?_eq_some_iff.mp hb).1
  obtain ⟨args, k, ds, p, hlife⟩ := exists_life hrun hi
  obtain rfl : d = p.drive := Option.some.inj (hd.symm.trans hlife.view)
  obtain ⟨before, after, m₀, rfl, -, -, -, -, hown⟩ := hlife.born
  have hsanitizes : p.drive.intf.erasures.Sublist (ds.filterMap NvmeManager.Event.erasure?) :=
    Process.erasures_of_run hlife.run
  -- a sanitize is asked for by an event of the drive's own
  have hfilter : ds.filterMap NvmeManager.Event.erasure? = (ds.filter isOwn).filterMap NvmeManager.Event.erasure? := by
    rw [List.filterMap_filter]
    refine List.filterMap_congr fun e _ => ?_
    cases e with
    | erase => rfl
    | initializeDrive | inventory | writeFault | expire | tick | execute | deliver => simp [NvmeManager.Event.erasure?]
  have hafter : ds.filterMap NvmeManager.Event.erasure? = after.filterMap (Event.erasure? i) := by
    rw [hfilter, hown, List.filterMap_flatMap, List.filterMap_eq_flatMap_toList]
    exact List.flatMap_congr fun e _ => erasure_own e i
  rw [hafter] at hsanitizes
  rw [List.filterMap_append]
  exact hsanitizes.trans (List.sublist_append_right _ _)

end Manager

/-! ## The whole program -/

namespace Daemon
variable {cfg : Config} {d d' : Daemon} {e : Event} {es : List Event}

/-- What the drives run with by themselves. -/
def Event.driven : Event → Option Manager.Event
  | .drive e => some e
  | .main _ | .getter .. => none

theorem manager_act (a : Option Action) : (d.act a).manager = d.manager := by
  cases a with
  | none | some => rfl

/-- The manager goes through a run of its own: the getters add only endpoints and inventories. -/
theorem manager_of_run (hrun : Run (Step cfg) init es d) :
    ∃ ms, Run (Manager.Step cfg) .init ms d.manager ∧ ms.filter internal = es.filterMap Event.driven := by
  refine hrun.history_invariant
    (fun es d => ∃ ms, Run (Manager.Step cfg) .init ms d.manager ∧ ms.filter internal = es.filterMap Event.driven)
    ⟨[], .nil, rfl⟩ ?_
  rintro es d e d' ⟨ms, hms, hevents⟩ h
  rw [List.filterMap_append, ← hevents]
  cases (turn_of_step h).2 with
  | main hmain =>
      refine ⟨ms, ?_, (List.append_nil _).symm⟩
      change Run (Manager.Step cfg) .init ms (d.act _).manager
      rw [manager_act]
      exact hms
  | getter => exact ⟨ms, hms, (List.append_nil _).symm⟩
  | looked hg hpurpose hobject hdata hmanager | round hg hpurpose hobject hdata hmanager =>
      refine ⟨_, hms.snoc hmanager, ?_⟩
      rw [List.filter_append]
      rfl
  | drive hinternal hmanager =>
      refine ⟨_, hms.snoc hmanager, ?_⟩
      rw [List.filter_append, List.filter_cons_of_pos hinternal]
      rfl

def Event.erasure? (i : Nat) (e : Event) : Option Erasure := e.driven.bind (Manager.Event.erasure? i)

/-- **No drive is sanitized unless a client has erased it.** In every run of the program, the sanitizes that have been
made on the endpoint of a drive, and those that are about to be, are those that clients have asked this drive for, in
their order and each once, without those that have been refused; each has the low eight bits of the client's pass count
and the rest of its method. -/
theorem erased_of_run (hrun : Run (Step cfg) init es d) {i : Nat} {drive : NVMeDevice}
    (hdrive : d.manager.view i = some drive) : drive.intf.erasures.Sublist (es.filterMap (Event.erasure? i)) := by
  obtain ⟨ms, hms, hevents⟩ := manager_of_run hrun
  have hclients : ms.filterMap (Manager.Event.erasure? i) = es.filterMap (Event.erasure? i) := by
    have hfilter : ms.filterMap (Manager.Event.erasure? i) =
        (ms.filter internal).filterMap (Manager.Event.erasure? i) := by
      rw [List.filterMap_filter]
      refine List.filterMap_congr fun e _ => ?_
      cases e with
      | endpoints | inventory => rfl
      | writeFault | erase | expire | tick | execute | deliver => simp [internal]
    rw [hfilter, hevents, List.filterMap_filterMap]
    rfl
  rw [← hclients]
  exact Manager.erasures_of_run hms hdrive

/-- The first drive is found and identified; a client erases it twice, and the second erase is refused. -/
def erasedRun : List Event :=
  .main .runPosted :: firstEndpoint.map (firstReply []) ++ [firstReply [0] (.mapperReply 0 none)] ++
    [.execute Informed.cryptoDrive 0, .deliver, .execute Informed.cryptoDrive 0, .deliver, .erase 0 0 .cryptoErase,
      .erase 0 0 .blockErase, .execute Informed.cryptoDrive 0, .execute Informed.cryptoDrive 0].map .drive

/-- The theorem after `erasedRun`. -/
theorem erased_of_run_first : ∃ (d : Daemon) (drive : NVMeDevice), Run (Step .standard) init erasedRun d ∧
    d.manager.view 0 = some drive ∧ drive.intf.erasures = [⟨.startCryptoErase, 0, true, 0⟩] ∧
      drive.intf.erasures.Sublist (erasedRun.filterMap (Event.erasure? 0)) := by
  have hfacts : (erasedRun.foldlM (fun (d : Daemon) e => d.next .standard e) init).any (fun d =>
      (d.manager.view 0).any fun drive => drive.intf.erasures = [⟨.startCryptoErase, 0, true, 0⟩]) = true := by
    decide +kernel
  obtain ⟨d, hd, hstate⟩ := (Option.any_eq_true _ _).mp hfacts
  obtain ⟨drive, hdrive, herasures⟩ := (Option.any_eq_true _ _).mp hstate
  rw [decide_eq_true_eq] at herasures
  have hrun : Run (Step .standard) init erasedRun d := Run.of_foldlM hd
  exact ⟨d, drive, hrun, hdrive, herasures, erased_of_run hrun hdrive⟩

end Daemon
end NvmeManager
