import NvmeManager.Lib.Tagged
import NvmeManager.System.Exchange
import NvmeManager.System.Pace

/-!
# Requests and their answers

* `Command.Answers` : the replies that a request can get; `Answers.length` : there is one, and for a SMART read there may
  be two;
* `Ledger` : a process, the requests that it has made and the callbacks that have been run;
* `Balanced` : the requests are answered in their order, and none is lost;
* `answered_of_run` : so it is in every run.
-/

namespace NvmeManager

/-! ## Replies -/

theorem length_logReplies (log : Int × List UInt8) (errno : Int) :
    (NVMeMi.logReplies log errno).length = 1 ∨ (NVMeMi.logReplies log errno).length = 2 := by
  unfold NVMeMi.logReplies
  split
  · exact .inl rfl
  · split
    · exact .inr rfl
    · exact .inl rfl

namespace Command
variable {cfg : Config} {c : Command}

def IsSmart : Command → Prop
  | smart _ => True
  | scan | identify _ | portInformation | health | sanitizeLog _ | sanitize .. => False

/-- A request other than the SMART read is answered once; that one may be answered twice. -/
theorem length_posted (cfg : Config) (c : Command) (lib : Libnvme) (errno : Int) (ep : Endpoint) :
    ((c.request cfg).executed lib errno ep).posted.length = 1 ∨
      ((c.request cfg).executed lib errno ep).posted.length = 2 ∧ c.IsSmart := by
  cases c with
  | scan => exact .inl (length_posted_of_opening (c := .scan) trivial lib errno ep)
  | identify ctrl => exact .inl (length_posted_of_opening (c := .identify ctrl) trivial lib errno ep)
  | portInformation => exact .inl (length_posted_of_opening (c := .portInformation) trivial lib errno ep)
  | health =>
      obtain ⟨r, hr⟩ := NVMeMi.postsOnce_miSubsystemHealthStatusPoll lib (.start errno ep)
      refine .inl ?_
      change (NVMeMi.miSubsystemHealthStatusPoll.exec lib (.start errno ep)).2.posted.length = 1
      rw [hr]
      rfl
  | sanitizeLog =>
      rw [posted_sanitizeLog]
      exact .inl rfl
  | sanitize ctrl type passes =>
      obtain ⟨r, -, hr, -⟩ := executed_sanitize ctrl type passes
      rw [hr]
      exact .inl rfl
  | smart ctrl =>
      change (((NVMeMi.adminGetLogPage ctrl .smart 0xFFFFFFFF 0 0).exec lib (.start errno ep)).2.posted.length = 1) ∨
        (((NVMeMi.adminGetLogPage ctrl .smart 0xFFFFFFFF 0 0).exec lib (.start errno ep)).2.posted.length = 2) ∧ True
      rw [NVMeMi.adminGetLogPage_posted, List.length_append]
      rcases length_logReplies ((NVMeMi.readLog ctrl .smart 0xFFFFFFFF 0).exec lib (.start errno ep)).1
        ((NVMeMi.readLog ctrl .smart 0xFFFFFFFF 0).exec lib (.start errno ep)).2.errno with hone | htwo
      · rw [hone]
        exact .inl rfl
      · rw [htwo]
        exact .inr ⟨rfl, trivial⟩

/-- The replies that a request can get: there is no endpoint, or the worker has executed it. -/
def Answers (cfg : Config) (c : Command) (replies : List Reply) : Prop :=
  replies = [⟨.no_such_device, (c.request cfg).noPayload⟩] ∨
    ∃ lib errno ep, replies = ((c.request cfg).executed lib errno ep).posted

theorem Answers.length {replies : List Reply} (h : c.Answers cfg replies) :
    replies.length = 1 ∨ replies.length = 2 ∧ c.IsSmart := by
  rcases h with rfl | ⟨lib, errno, ep, rfl⟩
  · exact .inl rfl
  · exact length_posted cfg c lib errno ep

end Command

/-! ## Balance -/

/-- What has been asked and what has been run, and the interface between them: the requests are answered in the order in
which they were made, each with its own replies; the last of the answers and of the requests wait. -/
structure Balanced (cfg : Config) (asked : List Command) (run : List Pending) (mi : NVMeMi) : Prop where
  served : ∃ served : List (Command × List Reply), asked = served.map Prod.fst ++ mi.worker ∧
    (run ++ mi.io).map (fun q => (q.command, q.reply)) = served.flatMap (fun a => tagged a.1 a.2) ∧
      ∀ a ∈ served, a.1.Answers cfg a.2
  closed : mi.nvmeEP = none → mi.worker = []

namespace Balanced
variable {cfg : Config} {asked : List Command} {run : List Pending} {mi mi' : NVMeMi}

theorem submit (h : Balanced cfg asked run mi) (c : Command) : Balanced cfg (asked ++ [c]) run (mi.submit cfg c) := by
  obtain ⟨⟨served, hasked, hrun, hanswers⟩, hclosed⟩ := h
  unfold NVMeMi.submit
  cases hep : mi.nvmeEP with
  | none =>
      -- the callback is posted at once, behind those of all requests so far
      rw [hclosed hep, List.append_nil] at hasked
      refine ⟨⟨served ++ [(c, [⟨.no_such_device, (c.request cfg).noPayload⟩])], ?_, ?_, ?_⟩, fun _ => hclosed hep⟩
      · rw [hasked, hclosed hep]
        simp
      · rw [← List.append_assoc, List.map_append, hrun, List.flatMap_append]
        rfl
      · intro a ha
        rcases List.mem_append.mp ha with hold | hnew
        · exact hanswers a hold
        · obtain rfl := List.mem_singleton.mp hnew
          exact .inl rfl
  | some ep =>
      refine ⟨⟨served, ?_, hrun, hanswers⟩, fun hnone => ?_⟩
      · rw [hasked, List.append_assoc]
      · cases hnone

theorem submits (h : Balanced cfg asked run mi) (cs : List Command) :
    Balanced cfg (asked ++ cs) run (mi.submits cfg cs) := by
  induction cs generalizing asked mi with
  | nil =>
      rw [List.append_nil]
      exact h
  | cons c cs ih =>
      rw [← List.singleton_append, ← List.append_assoc]
      exact ih (h.submit c)

theorem execute (h : Balanced cfg asked run mi) {lib : Libnvme} {errno : Int} (hmi : mi.execute cfg lib errno = some mi') :
    Balanced cfg asked run mi' := by
  obtain ⟨⟨served, hasked, hrun, hanswers⟩, -⟩ := h
  obtain ⟨ep, c, rest, -, hworker, rfl⟩ := NVMeMi.execute_eq_some hmi
  refine ⟨⟨served ++ [(c, ((c.request cfg).executed lib errno ep).posted)], ?_, ?_, ?_⟩, nofun⟩
  · rw [hasked, hworker]
    simp
  · rw [← List.append_assoc, List.map_append, hrun, List.flatMap_append, List.map_map, List.flatMap_singleton]
    rfl
  · intro a ha
    rcases List.mem_append.mp ha with hold | hnew
    · exact hanswers a hold
    · obtain rfl := List.mem_singleton.mp hnew
      exact .inr ⟨lib, errno, ep, rfl⟩

theorem pop (h : Balanced cfg asked run mi) {q : Pending} {rest : List Pending} (hio : mi.io = q :: rest) :
    Balanced cfg asked (run ++ [q]) { mi with io := rest } := by
  obtain ⟨⟨served, hasked, hrun, hanswers⟩, hclosed⟩ := h
  refine ⟨⟨served, hasked, ?_, hanswers⟩, hclosed⟩
  rw [hio] at hrun
  rw [List.append_assoc]
  exact hrun

end Balanced

/-! ## Runs -/

/-- A process, and what it has asked and run. -/
structure Ledger where
  proc : Process
  /-- The requests made so far, oldest first. -/
  asked : List Command
  /-- The callbacks that have been run, oldest first. -/
  run : List Pending

namespace Ledger
variable (cfg : Config)

def next (l : Ledger) (e : Event) : Option Ledger :=
  (l.proc.next cfg e).map (⟨·, l.asked ++ l.proc.asks e, l.run ++ l.proc.runs e⟩)

def Step (l : Ledger) (e : Event) (l' : Ledger) : Prop := l.next cfg e = some l'

variable {cfg} {l l' : Ledger} {e : Event}

theorem balanced_of_step (h : Balanced cfg l.asked l.run l.proc.drive.intf) (hstep : l.Step cfg e l') :
    Balanced cfg l'.asked l'.run l'.proc.drive.intf := by
  obtain ⟨p', hprocess, rfl⟩ := Option.map_eq_some_iff.mp hstep
  have hexchange := Process.exchange_of_turn (Process.turn_of_step hprocess).2
  dsimp only
  generalize p'.drive.intf = mi at hexchange
  cases hexchange with
  | made htakes =>
      rw [Process.runs_of_not_takes htakes, List.append_nil]
      exact h.submits _
  | executed hmi =>
      change Balanced cfg (l.asked ++ []) (l.run ++ []) mi
      rw [List.append_nil, List.append_nil]
      exact h.execute hmi
  | handled hio =>
      rw [Process.runs_deliver hio]
      exact (h.pop hio).submits _

/-- **Answers.** In every run the callbacks are run in the order in which their requests were made, and each with a reply
to its own request: what has been asked is what has been served and what waits for the worker, and the callbacks run so far
and those that wait for the loop are those of the requests served, one for each, but for a SMART read at most two. -/
theorem answered_of_run {props : NvmeInterfaces} {u : Uninitialised} {eid : UInt8} {bus : UInt32} {path : String}
    {timeout : Option Nat} {es : List Event}
    (hrun : Run (Step cfg) ⟨.start cfg props u eid bus path timeout, [], []⟩ es l) :
    ∃ served : List (Command × List Reply), l.asked = served.map Prod.fst ++ l.proc.drive.intf.worker ∧
      (l.run ++ l.proc.drive.intf.io).map (fun q => (q.command, q.reply)) =
        served.flatMap (fun a => tagged a.1 a.2) ∧
      ∀ a ∈ served, a.1.Answers cfg a.2 ∧ (a.2.length = 1 ∨ a.2.length = 2 ∧ a.1.IsSmart) := by
  have h : Balanced cfg l.asked l.run l.proc.drive.intf :=
    hrun.invariant (fun l => Balanced cfg l.asked l.run l.proc.drive.intf)
      ⟨⟨[], rfl, rfl, nofun⟩, fun _ => rfl⟩ fun _ _ _ h hstep => balanced_of_step h hstep
  obtain ⟨served, hasked, hanswered, hanswers⟩ := h.served
  exact ⟨served, hasked, hanswered, fun a ha => ⟨hanswers a ha, (hanswers a ha).length⟩⟩

/-- The theorem at a drive whose scan has been answered: its identify waits for the worker. -/
theorem answered_of_run_scanned : ∃ (l : Ledger) (served : List (Command × List Reply)),
    Run (Step .standard) ⟨.start .standard default default 10 3 Process.first.drive.objPath (some 5000), [], []⟩
      [.initializeDrive, .execute (.ok { handles := [7] }) 0, .deliver] l ∧
    l.asked = [.scan, .identify ⟨1, 7⟩] ∧ l.run.length = 1 ∧
    l.asked = served.map Prod.fst ++ l.proc.drive.intf.worker ∧
    (l.run ++ l.proc.drive.intf.io).map (fun q => (q.command, q.reply)) =
      served.flatMap (fun a => tagged a.1 a.2) := by
  have hrun : Run (Step .standard)
      ⟨.start .standard default default 10 3 Process.first.drive.objPath (some 5000), [], []⟩
      [.initializeDrive, .execute (.ok { handles := [7] }) 0, .deliver] _ := Run.of_foldlM rfl
  obtain ⟨served, hasked, hanswered, -⟩ := answered_of_run hrun
  exact ⟨_, served, hrun, rfl, rfl, hasked, hanswered⟩

end Ledger
end NvmeManager
