import NvmeManager.System.Consent

/-!
# The pace of the poll loop

* `Command.isPoll` : the requests of the loop, all but the sanitizes of clients; `NVMeMi.polls` : those that are
  outstanding, `NVMeMi.queuedPolls` : those that wait for the worker;
* `Pace` : what is outstanding at each stage of the loop; `Pace.execute`, `Pace.follow` : a request is executed, and its
  callback is run;
* `Process.Early` : the timer expires while the read of a log is outstanding;
* `paced_of_run` : without it nothing of the loop is outstanding at a tick, and at most two of its requests are queued;
  `crowded_of_early` : with it something is;
* `backlog_unbounded` : during a sanitize the queue grows with every tick that the worker does not keep up with.
-/

namespace NvmeManager

/-! ## Requests of the loop -/

namespace Command

def isPoll (c : Command) : Bool := !c.isSanitize

/-- The read of a log: it can be outstanding while the timer is waiting. -/
def Late : Command → Prop
  | smart _ | sanitizeLog _ => True
  | scan | identify _ | portInformation | health | sanitize .. => False

instance (c : Command) : Decidable c.Late :=
  match c with
  | smart _ | sanitizeLog _ => inferInstanceAs (Decidable True)
  | scan | identify _ | portInformation | health | sanitize .. => inferInstanceAs (Decidable False)

theorem isPoll_of_opening {c : Command} (h : c.Opening) : c.isPoll = true := by
  rw [isPoll, h.isSanitize]
  rfl

theorem isPoll_of_late {c : Command} (h : c.Late) : c.isPoll = true := by
  cases c with
  | smart | sanitizeLog => rfl
  | scan | identify | portInformation | health | sanitize => exact h.elim

theorem length_posted_of_opening {cfg : Config} {c : Command} (hc : c.Opening) (lib : Libnvme) (errno : Int)
    (ep : Endpoint) : ((c.request cfg).executed lib errno ep).posted.length = 1 := by
  have hone : ∀ {p : Closure Unit}, p.PostsOnce → (p.exec lib (.start errno ep)).2.posted.length = 1 := by
    intro p hp
    obtain ⟨r, hr⟩ := hp lib (.start errno ep)
    rw [hr]
    rfl
  cases c with
  | scan => exact hone NVMeMi.postsOnce_miScanCtrl
  | identify ctrl => exact hone (NVMeMi.postsOnce_adminIdentify _ _ _ _ _)
  | portInformation => exact hone NVMeMi.postsOnce_miPCIePortInformation
  | health | smart | sanitizeLog | sanitize => exact hc.elim

end Command

namespace NVMeMi
variable {cfg : Config} {mi mi' : NVMeMi} {c : Command}

/-- The requests of the loop that have not been handled. -/
def polls (mi : NVMeMi) : List Command := mi.outstanding.filter Command.isPoll

/-- The requests of the loop that wait for the worker. -/
def queuedPolls (mi : NVMeMi) : List Command := mi.worker.filter Command.isPoll

theorem polls_eq : mi.polls = (mi.io.map Pending.command).filter Command.isPoll ++ mi.queuedPolls :=
  List.filter_append ..

theorem length_queuedPolls_le (mi : NVMeMi) : mi.queuedPolls.length ≤ mi.polls.length := by
  rw [polls_eq, List.length_append]
  exact Nat.le_add_left _ _

/-- Without an endpoint nothing of the loop is in the queue of the worker. -/
def Unqueued (mi : NVMeMi) : Prop := mi.nvmeEP = none → mi.queuedPolls = []

theorem submit_sanitize (cfg : Config) (mi : NVMeMi) (hc : c.isPoll = false) :
    (mi.submit cfg c).polls = mi.polls ∧ (mi.submit cfg c).queuedPolls = mi.queuedPolls := by
  rw [polls_eq, polls_eq]
  unfold submit queuedPolls
  cases hep : mi.nvmeEP with
  | none => simp [hc]
  | some ep => simp [hc]

theorem submit_poll (cfg : Config) (hc : c.isPoll = true) (hqueue : mi.Unqueued) :
    (mi.submit cfg c).polls = mi.polls ++ [c] ∧ (mi.submit cfg c).Unqueued ∧
      (mi.submit cfg c).queuedPolls.length ≤ mi.queuedPolls.length + 1 := by
  unfold Unqueued at hqueue ⊢
  rw [polls_eq, polls_eq, nvmeEP_submit]
  unfold submit queuedPolls at *
  cases hep : mi.nvmeEP with
  | none => simp [hc, hqueue hep]
  | some ep => simp [hc]

/-- The worker executes a request of the loop: its callbacks stand where it was. -/
theorem execute_poll {lib : Libnvme} {errno : Int} {rest : List Command} (h : mi.execute cfg lib errno = some mi')
    (hworker : mi.worker = c :: rest) (hc : c.isPoll = true) :
    ∃ before n, mi.polls = before ++ c :: mi'.queuedPolls ∧ mi'.polls = before ++ List.replicate n c ++ mi'.queuedPolls ∧
      mi.queuedPolls = c :: mi'.queuedPolls ∧ (c.Opening → n = 1) := by
  obtain ⟨ep, c', rest', hep, hworker', rfl⟩ := execute_eq_some h
  obtain ⟨rfl, rfl⟩ := List.cons.inj (hworker.symm.trans hworker')
  have hqueued : mi.queuedPolls = c :: rest.filter Command.isPoll := by
    unfold queuedPolls
    rw [hworker, List.filter_cons, if_pos hc]
  refine ⟨(mi.io.map Pending.command).filter Command.isPoll, ((c.request cfg).executed lib errno ep).posted.length, ?_,
    ?_, hqueued, fun hopening => Command.length_posted_of_opening hopening lib errno ep⟩
  · rw [polls_eq, hqueued]
    rfl
  · rw [polls_eq]
    simp [queuedPolls, Function.comp_def, hc]

theorem execute_sanitize {lib : Libnvme} {errno : Int} {rest : List Command} (h : mi.execute cfg lib errno = some mi')
    (hworker : mi.worker = c :: rest) (hc : c.isPoll = false) :
    mi'.polls = mi.polls ∧ mi'.queuedPolls = mi.queuedPolls := by
  obtain ⟨ep, c', rest', hep, hworker', rfl⟩ := execute_eq_some h
  obtain ⟨rfl, rfl⟩ := List.cons.inj (hworker.symm.trans hworker')
  rw [polls_eq, polls_eq]
  simp [queuedPolls, hworker, hc]

theorem polls_pop {q : Pending} {rest : List Pending} (hio : mi.io = q :: rest) :
    mi.polls = if q.command.isPoll then q.command :: ({ mi with io := rest } : NVMeMi).polls
      else ({ mi with io := rest } : NVMeMi).polls := by
  rw [polls_eq, polls_eq, hio, List.map_cons, List.filter_cons]
  split
  · rfl
  · rfl

end NVMeMi

/-! ## Stages of the loop -/

/-- What is outstanding at each stage of the loop, and the timer there; the first argument tells whether the drive has
been initialized. -/
inductive Pace : Bool → SteadyTimer Unit → List Command → Prop
  | still {started : Bool} : Pace started .idle []
  | opening {c : Command} (hc : c.Opening) : Pace true .idle [c]
  | waiting {polls : List Command} (late : ∀ c ∈ polls, c.Late) : Pace true ⟨some (), []⟩ polls
  | fired : Pace true ⟨none, [()]⟩ []
  /-- A poll: the health status is handled before the log. -/
  | poll {polls : List Command} (kinds : ∀ c ∈ polls, c = .health ∨ c.Late)
      (order : polls.Pairwise fun c c' => c.Late → c'.Late) : Pace true .idle polls

namespace Pace
variable {started : Bool} {t : SteadyTimer Unit} {c : Command} {polls : List Command}

theorem tail (h : Pace started t (c :: polls)) : Pace started t polls := by
  cases h with
  | opening => exact .still
  | waiting late => exact .waiting fun c' hc' => late c' (List.mem_cons_of_mem _ hc')
  | poll kinds order => exact .poll (fun c' hc' => kinds c' (List.mem_cons_of_mem _ hc')) order.of_cons

theorem eq_nil (h : Pace started t (polls ++ [c])) (hc : c.Opening) : polls = [] := by
  have hlast : c ∈ polls ++ [c] := List.mem_append_right _ (List.mem_singleton_self c)
  have hnot : ¬ (c = .health ∨ c.Late) := by
    rintro (rfl | hlate)
    · exact hc
    · cases c with
      | scan | identify | portInformation => exact hlate
      | health | smart | sanitizeLog | sanitize => exact hc
  generalize hpolls : polls ++ [c] = polls' at h hlast
  cases h with
  | still | fired => cases hlast
  | opening =>
      cases polls with
      | nil => rfl
      | cons c' polls => simp at hpolls
  | waiting late => exact absurd (.inr (late c hlast)) hnot
  | poll kinds => exact absurd (kinds c hlast) hnot

/-- A request is executed; one that does not come before the first poll may be answered more than once. -/
theorem execute {before behind : List Command} {n : Nat} (h : Pace started t (before ++ c :: behind))
    (hn : c.Opening → n = 1) : Pace started t (before ++ List.replicate n c ++ behind) := by
  have hsub : ∀ c' ∈ before ++ List.replicate n c ++ behind, c' ∈ before ++ c :: behind := by
    intro c' hc'
    simp only [List.mem_append, List.mem_replicate, List.mem_cons] at hc' ⊢
    tauto
  cases hpolls : before ++ c :: behind with
  | nil => simp at hpolls
  | cons c₀ polls =>
      rw [hpolls] at h hsub
      cases h with
      | opening hc =>
          cases before with
          | nil =>
              obtain ⟨rfl, rfl⟩ := List.cons.inj hpolls
              rw [hn hc]
              exact .opening hc
          | cons c' before => simp at hpolls
      | waiting late => exact .waiting fun c' hc' => late c' (hsub c' hc')
      | poll kinds order =>
          refine .poll (fun c' hc' => kinds c' (hsub c' hc')) ?_
          rw [← hpolls, List.pairwise_append, List.pairwise_cons] at order
          obtain ⟨hbefore, ⟨hhead, hbehind⟩, hcross⟩ := order
          rw [List.pairwise_append, List.pairwise_append, List.pairwise_replicate]
          refine ⟨⟨hbefore, .inr id, ?_⟩, hbehind, ?_⟩
          · intro a ha b hb
            obtain ⟨-, rfl⟩ := List.mem_replicate.mp hb
            exact hcross a ha b List.mem_cons_self
          · intro a ha b hb
            rcases List.mem_append.mp ha with ha | ha
            · exact hcross a ha b (List.mem_cons_of_mem _ hb)
            · obtain ⟨-, rfl⟩ := List.mem_replicate.mp ha
              exact hhead b hb

end Pace

namespace NVMeDevice
variable {cfg : Config} {d d' : NVMeDevice} {c : Command} {r : Reply}

theorem follow_late (hc : c.Late) : d.follow c r = .nothing ∨ d.follow c r = .wait := by
  unfold follow
  cases c with
  | scan | identify | portInformation | health | sanitize => exact hc.elim
  | smart => exact .inr rfl
  | sanitizeLog =>
      dsimp only
      split
      · exact .inl rfl
      · exact .inr rfl

end NVMeDevice

theorem Pace.follow {started : Bool} {t : SteadyTimer Unit} {c : Command} {polls : List Command}
    (h : Pace started t (c :: polls)) (d : NVMeDevice) (r : Reply) :
    Pace started ((d.follow c r).timer t) (polls ++ (d.follow c r).requests) := by
  have hrest := h.tail
  cases h with
  | opening hc =>
      cases hfollow : d.follow c r with
      | request c' => exact .opening (NVMeDevice.opening_follow hfollow)
      | wait => exact .waiting nofun
      | nothing => exact .still
  | waiting late =>
      rcases NVMeDevice.follow_late (d := d) (r := r) (late c List.mem_cons_self) with heq | heq
      · rw [heq, NVMeDevice.Follow.requests, List.append_nil]
        exact hrest
      · rw [heq, NVMeDevice.Follow.requests, List.append_nil]
        exact hrest
  | poll kinds order =>
      rcases kinds c List.mem_cons_self with rfl | hc
      · change Pace true .idle (polls ++ [])
        rwa [List.append_nil]
      · rcases NVMeDevice.follow_late (d := d) (r := r) hc with heq | heq
        · rw [heq, NVMeDevice.Follow.requests, List.append_nil]
          exact hrest
        · rw [heq, NVMeDevice.Follow.requests, List.append_nil]
          exact .waiting fun c' hc' => (List.pairwise_cons.mp order).1 c' hc' hc

/-! ## The drive -/

namespace NVMeDevice
variable {cfg : Config} {d d' : NVMeDevice} {c : Command} {started : Bool}

/-- A drive at a stage of the loop. -/
structure Paced (started : Bool) (d : NVMeDevice) : Prop where
  pace : Pace started d.scanTimer d.intf.polls
  unqueued : d.intf.Unqueued
  queue : d.intf.queuedPolls.length ≤ 2

theorem Paced.of_eq (hd : d.Paced started) (htimer : d'.scanTimer = d.scanTimer) (hintf : d'.intf = d.intf) :
    d'.Paced started := by
  refine ⟨?_, ?_, ?_⟩
  · rw [htimer, hintf]
    exact hd.pace
  · rw [hintf]
    exact hd.unqueued
  · rw [hintf]
    exact hd.queue

theorem paced_call (htimer : d.scanTimer = .idle) (hpolls : d.intf.polls = []) (hqueue : d.intf.Unqueued)
    (hc : c.Opening) : (d.call cfg c).Paced true := by
  obtain ⟨hcall, hunqueued, hlength⟩ := NVMeMi.submit_poll cfg (Command.isPoll_of_opening hc) hqueue
  have hnone := NVMeMi.length_queuedPolls_le d.intf
  rw [hpolls] at hcall hnone
  refine ⟨?_, hunqueued, Nat.le_trans hlength (Nat.succ_le_succ (Nat.le_trans hnone (Nat.zero_le 1)))⟩
  change Pace true d.scanTimer (d.intf.submit cfg c).polls
  rw [htimer, hcall]
  exact .opening hc

theorem paced_initializeDrive (hd : d.Paced false) : (d.initializeDrive cfg).Paced true := by
  obtain ⟨pace, unqueued, -⟩ := hd
  generalize htimer : d.scanTimer = t at pace
  generalize hpolls : d.intf.polls = polls at pace
  cases pace with
  | still => exact paced_call htimer hpolls unqueued trivial

theorem paced_tick (htimer : d.scanTimer = .idle) (hpolls : d.intf.polls = []) (hqueue : d.intf.Unqueued) :
    (d.tick cfg).Paced true := by
  have hnone := NVMeMi.length_queuedPolls_le d.intf
  rw [hpolls, List.length_nil] at hnone
  unfold tick
  split
  · exact paced_call htimer hpolls hqueue trivial
  · split
    · obtain ⟨hcall, hunqueued, hlength⟩ :=
        NVMeMi.submit_poll cfg (c := .sanitizeLog d.ctrl) rfl hqueue
      refine ⟨?_, hunqueued, ?_⟩
      · change Pace true (d.scanTimer.arm ()) (d.intf.submit cfg (.sanitizeLog d.ctrl)).polls
        rw [htimer, hcall, hpolls]
        exact .waiting fun c hc => by
          rw [List.mem_singleton.mp hc]
          trivial
      · exact Nat.le_trans hlength (by omega)
    · obtain ⟨hhealth, hunqueued, hlength⟩ := NVMeMi.submit_poll cfg (c := .health) rfl hqueue
      obtain ⟨hsmart, hunqueued', hlength'⟩ :=
        NVMeMi.submit_poll cfg (c := .smart d.ctrl) rfl hunqueued
      refine ⟨?_, hunqueued', ?_⟩
      · change Pace true d.scanTimer ((d.intf.submit cfg .health).submit cfg (.smart d.ctrl)).polls
        rw [htimer, hsmart, hhealth, hpolls]
        refine .poll ?_ ?_
        · simp [Command.Late]
        · simp [Command.Late]
      · exact Nat.le_trans hlength' (by omega)

theorem paced_sanitize (hd : d.Paced started) (hc : c.isPoll = false) : (d.call cfg c).Paced started := by
  obtain ⟨pace, unqueued, queue⟩ := hd
  obtain ⟨hpolls, hqueued⟩ := NVMeMi.submit_sanitize cfg d.intf hc
  refine ⟨?_, fun hep => ?_, ?_⟩
  · change Pace started d.scanTimer (d.intf.submit cfg c).polls
    rwa [hpolls]
  · exact hqueued.trans (unqueued ((NVMeMi.nvmeEP_submit c).symm.trans hep))
  · change (d.intf.submit cfg c).queuedPolls.length ≤ 2
    rwa [hqueued]

theorem paced_execute {lib : Libnvme} {errno : Int} {mi : NVMeMi} (hd : d.Paced started)
    (h : d.intf.execute cfg lib errno = some mi) : ({ d with intf := mi } : NVMeDevice).Paced started := by
  obtain ⟨pace, -, queue⟩ := hd
  obtain ⟨ep, c, rest, -, hworker, hmi⟩ := NVMeMi.execute_eq_some h
  have hunqueued : mi.Unqueued := by
    rw [hmi]
    exact nofun
  by_cases hc : c.isPoll = true
  · obtain ⟨before, n, hpolls, hpolls', hqueued, hn⟩ := NVMeMi.execute_poll h hworker hc
    refine ⟨?_, hunqueued, ?_⟩
    · change Pace started d.scanTimer mi.polls
      rw [hpolls] at pace
      rw [hpolls']
      exact pace.execute hn
    · rw [hqueued] at queue
      exact Nat.le_of_succ_le queue
  · obtain ⟨hpolls, hqueued⟩ := NVMeMi.execute_sanitize h hworker (Bool.eq_false_iff.mpr hc)
    refine ⟨?_, hunqueued, ?_⟩
    · change Pace started d.scanTimer mi.polls
      rwa [hpolls]
    · change mi.queuedPolls.length ≤ 2
      rwa [hqueued]

theorem paced_pop {q : Pending} {rest : List Pending} (hd : d.Paced started) (hio : d.intf.io = q :: rest) :
    ({ d with intf := { d.intf with io := rest } } : NVMeDevice).Paced started := by
  obtain ⟨pace, unqueued, queue⟩ := hd
  rw [NVMeMi.polls_pop hio] at pace
  refine ⟨?_, unqueued, queue⟩
  split at pace
  · exact pace.tail
  · exact pace

theorem follow_sanitize {r : Reply} (hc : c.isPoll = false) : d.follow c r = .nothing := by
  cases c with
  | sanitize => rfl
  | scan | identify | portInformation | health | smart | sanitizeLog => cases hc

theorem paced_handle {q : Pending} {rest : List Pending} (hd : d.Paced started) (hio : d.intf.io = q :: rest)
    (h : ({ d with intf := { d.intf with io := rest } } : NVMeDevice).handle cfg q.command q.reply = some d') :
    d'.Paced started := by
  have hpopped := paced_pop hd hio
  obtain ⟨htimer, hintf⟩ := handle_follow h
  have pace := hd.pace
  rw [NVMeMi.polls_pop hio] at pace
  by_cases hc : q.command.isPoll = true
  · rw [if_pos hc] at pace
    have hnext := pace.follow { d with intf := { d.intf with io := rest } } q.reply
    rw [← htimer] at hnext
    cases hfollow : follow { d with intf := { d.intf with io := rest } } q.command q.reply with
    | request c' =>
        rw [hfollow] at hintf hnext
        have hc' := opening_follow hfollow
        obtain ⟨hpolls, hunqueued, -⟩ :=
          NVMeMi.submit_poll cfg (Command.isPoll_of_opening hc') hpopped.unqueued
        change d'.intf = NVMeMi.submit cfg { d.intf with io := rest } c' at hintf
        have hlength := NVMeMi.length_queuedPolls_le d'.intf
        refine ⟨?_, ?_, ?_⟩
        · rw [hintf, hpolls]
          exact hnext
        · rw [hintf]
          exact hunqueued
        · rw [hintf, hpolls, hnext.eq_nil hc'] at hlength
          rw [hintf]
          exact Nat.le_succ_of_le hlength
    | wait | nothing =>
        rw [hfollow] at hintf hnext
        rw [Follow.requests, List.append_nil] at hnext
        change d'.intf = { d.intf with io := rest } at hintf
        refine ⟨?_, ?_, ?_⟩
        · rw [hintf]
          exact hnext
        · rw [hintf]
          exact hpopped.unqueued
        · rw [hintf]
          exact hpopped.queue
  · rw [follow_sanitize (Bool.eq_false_iff.mpr hc)] at htimer hintf
    exact hpopped.of_eq htimer hintf

end NVMeDevice

/-! ## Runs -/

def Event.isInitialize : Event → Bool
  | initializeDrive => true
  | _ => false

namespace Process
variable {cfg : Config} {p p' : Process} {e : Event} {started : Bool}

/-- The timer expires while the read of a log is outstanding. -/
def Early (p : Process) : Event → Prop
  | .expire => ∃ c ∈ p.drive.intf.outstanding, c.Late
  | _ => False

instance (p : Process) (e : Event) : Decidable (p.Early e) :=
  match e with
  | .expire => inferInstanceAs (Decidable (∃ c ∈ p.drive.intf.outstanding, c.Late))
  | .initializeDrive | .inventory .. | .writeFault .. | .erase .. | .tick | .execute .. | .deliver =>
    inferInstanceAs (Decidable False)

/-- What waits while the timer does is late, so it is nothing when the timer expires in time. -/
theorem paced_expire {t : SteadyTimer Unit} (hd : p.drive.Paced started) (hok : ¬ p.Early .expire)
    (ht : p.drive.scanTimer.expire = some t) : ({ p.drive with scanTimer := t } : NVMeDevice).Paced started := by
  obtain ⟨pace, unqueued, queue⟩ := hd
  obtain ⟨⟨⟩, hwait, rfl⟩ := SteadyTimer.expire_eq_some ht
  refine ⟨?_, unqueued, queue⟩
  change Pace started ⟨none, p.drive.scanTimer.fired ++ [()]⟩ p.drive.intf.polls
  generalize htimer : p.drive.scanTimer = timer at pace hwait
  generalize hpolls : p.drive.intf.polls = polls at pace
  cases pace with
  | still | opening | fired | poll => cases hwait
  | waiting late =>
      cases polls with
      | nil => exact .fired
      | cons c polls =>
          have hmem : c ∈ p.drive.intf.polls := by
            rw [hpolls]
            exact List.mem_cons_self
          exact absurd ⟨c, (List.mem_filter.mp hmem).1, late c List.mem_cons_self⟩ hok

/-- When the handler of the timer can be run, nothing of the loop is outstanding. -/
theorem polls_of_take {u : Unit} {t : SteadyTimer Unit} (hd : p.drive.Paced started)
    (ht : p.drive.scanTimer.take? = some (u, t)) : started = true ∧ t = .idle ∧ p.drive.intf.polls = [] := by
  obtain ⟨pace, -, -⟩ := hd
  obtain ⟨rest, hfired, rfl⟩ := SteadyTimer.take?_eq_some ht
  generalize p.drive.scanTimer = timer at pace hfired
  generalize p.drive.intf.polls = polls at pace
  cases pace with
  | still | opening | waiting | poll => cases hfired
  | fired =>
      obtain ⟨-, rfl⟩ := List.cons.inj hfired
      exact ⟨rfl, rfl, rfl⟩

theorem paced_of_turn (hok : ¬ p.Early e) (he : e.isInitialize = false) (hd : p.drive.Paced started)
    (h : Turn cfg p e p') : p'.drive.Paced started := by
  cases h with
  | initializeDrive => cases he
  | inventory => exact hd.of_eq NVMeDevice.scanTimer_inventory NVMeDevice.intf_inventory
  | writeFault => exact hd.of_eq rfl rfl
  | refused => exact hd
  | erased herase =>
      obtain ⟨_, ⟨_, rfl⟩ | ⟨_, rfl⟩⟩ := NVMeDevice.erase_eq_ok herase
      · exact hd
      · exact NVMeDevice.paced_sanitize hd rfl
  | expire ht => exact paced_expire hd hok ht
  | tick ht =>
      obtain ⟨rfl, rfl, hpolls⟩ := polls_of_take hd ht
      exact NVMeDevice.paced_tick rfl hpolls hd.unqueued
  | execute hmi => exact NVMeDevice.paced_execute hd hmi
  | deliver hio hhandle => exact NVMeDevice.paced_handle hd hio hhandle
  | abort hio _ => exact NVMeDevice.paced_pop hd hio

section
variable {props : NvmeInterfaces} {u : Uninitialised} {eid : UInt8} {bus : UInt32} {path : String}
  {timeout : Option Nat}

theorem paced_create : (NVMeDevice.create cfg props u eid bus path timeout).Paced false :=
  ⟨.still, fun _ => rfl, Nat.zero_le _⟩

/-- The stage of the loop after a run with at most one initialization. -/
theorem paced_history {es : List Event}
    (hrun : Run (guarded (fun p e => ¬ p.Early e) (Step cfg)) (start cfg props u eid bus path timeout) es p) :
    (es.countP Event.isInitialize = 0 → p.drive.Paced false) ∧
      (es.countP Event.isInitialize = 1 → p.drive.Paced true) := by
  refine hrun.history_invariant (fun es p => (es.countP Event.isInitialize = 0 → p.drive.Paced false) ∧
    (es.countP Event.isInitialize = 1 → p.drive.Paced true)) ⟨fun _ => paced_create, nofun⟩ ?_
  rintro es s e s' ⟨hbefore, hafter⟩ ⟨hok, h⟩
  have hturn := (turn_of_step h).2
  rw [List.countP_append, List.countP_singleton]
  cases he : e.isInitialize with
  | false => exact ⟨fun h₀ => paced_of_turn hok he (hbefore h₀) hturn, fun h₁ => paced_of_turn hok he (hafter h₁) hturn⟩
  | true =>
      refine ⟨nofun, fun h₁ => ?_⟩
      cases hturn with
      | initializeDrive => exact NVMeDevice.paced_initializeDrive (hbefore (Nat.succ.inj h₁))
      | inventory | writeFault | refused | erased | expire | tick | execute | deliver | abort => cases he

/-- **Pace.** In a run with one initialization, in which the timer never expires while the read of a log is outstanding,
nothing of the loop is outstanding when the timer's handler is run, and at most two of its requests are queued. -/
theorem paced_of_run {es : List Event}
    (hrun : Run (guarded (fun p e => ¬ p.Early e) (Step cfg)) (start cfg props u eid bus path timeout) es p)
    (hinit : es.countP Event.isInitialize ≤ 1) :
    (∀ p', p.Step cfg .tick p' → p.drive.intf.polls = []) ∧ p.drive.intf.queuedPolls.length ≤ 2 := by
  obtain ⟨started, hd⟩ : ∃ started, p.drive.Paced started := by
    obtain ⟨hbefore, hafter⟩ := paced_history hrun
    rcases Nat.le_one_iff_eq_zero_or_eq_one.mp hinit with h₀ | h₁
    · exact ⟨false, hbefore h₀⟩
    · exact ⟨true, hafter h₁⟩
  refine ⟨fun p' h => ?_, hd.queue⟩
  cases (turn_of_step h).2 with
  | tick ht => exact (polls_of_take hd ht).2.2

end

/-- After an early expiry the handler of the timer can be run, while a request of the loop is outstanding. -/
theorem crowded_of_early (hearly : p.Early .expire) (h : p.Step cfg .expire p') :
    (∃ p'', p'.Step cfg .tick p'') ∧ p'.drive.intf.polls ≠ [] := by
  obtain ⟨c, hc, hlate⟩ := hearly
  cases (turn_of_step h).2 with
  | expire ht =>
      obtain ⟨⟨⟩, hwait, rfl⟩ := SteadyTimer.expire_eq_some ht
      refine ⟨?_, List.ne_nil_of_mem (List.mem_filter.mpr ⟨hc, Command.isPoll_of_late hlate⟩)⟩
      cases hfired : p.drive.scanTimer.fired with
      | nil => exact ⟨_, rfl⟩
      | cons a rest => exact ⟨_, rfl⟩

def openingRun : List Event :=
  [.initializeDrive, .execute Informed.cryptoDrive 0, .deliver, .execute Informed.cryptoDrive 0, .deliver,
    .execute Informed.cryptoDrive 0, .deliver]

def dueRun : List Event := openingRun ++ [.expire]

/-- The theorem at the first tick. -/
theorem paced_of_run_opened : ∃ p p',
    Run (guarded (fun p e => ¬ p.Early e) (Step .standard)) first dueRun p ∧
      p.Step .standard .tick p' ∧ p.drive.intf.polls = [] := by
  have hfacts : (dueRun.foldlM
      (fun (p : Process) e => if ¬ p.Early e then p.next .standard e else none) first).any
        (fun p => (p.next .standard .tick).isSome) = true := by
    decide +kernel
  obtain ⟨p, hp, hnext⟩ := (Option.any_eq_true _ _).mp hfacts
  obtain ⟨p', hp'⟩ := Option.isSome_iff_exists.mp hnext
  have hrun : Run (guarded (fun p e => ¬ p.Early e) (Step .standard)) first dueRun p :=
    Run.guarded_of_foldlM hp
  exact ⟨p, p', hrun, hp', (paced_of_run hrun (by decide)).1 p' hp'⟩

def sanitizingRun : List Event :=
  openingRun ++ [.erase 0 .cryptoErase, .execute Informed.cryptoDrive 0, .deliver]

/-- The log that the next tick asks for is not answered before the timer expires again. -/
def overtakenRun : List Event := sanitizingRun ++ [.expire, .tick, .expire]

/-- The log of one tick is outstanding at the next. -/
theorem overtaken : ∃ p p', Run (Step .standard) first overtakenRun p ∧
    overtakenRun.countP Event.isInitialize = 1 ∧ p.Step .standard .tick p' ∧
      p.drive.intf.polls = [.sanitizeLog p.drive.ctrl] := by
  have hfacts : (overtakenRun.foldlM (next .standard) first).any (fun p =>
      (p.next .standard .tick).isSome && p.drive.intf.polls = [.sanitizeLog p.drive.ctrl]) = true := by
    decide +kernel
  obtain ⟨p, hp, hfacts⟩ := (Option.any_eq_true _ _).mp hfacts
  rw [Bool.and_eq_true, decide_eq_true_eq] at hfacts
  obtain ⟨p', hp'⟩ := Option.isSome_iff_exists.mp hfacts.1
  exact ⟨p, p', Run.of_foldlM hp, by decide, hp', hfacts.2⟩

/-! ## The queue during a sanitize -/

/-- The process runs, a sanitize is in progress, and the timer is waiting. -/
structure Sanitizing (p : Process) : Prop where
  running : p.aborted = false
  presence : p.drive.presence = true
  operation : p.drive.props.operation = .sanitize
  inProgress : p.drive.inProgress = true
  timer : p.drive.scanTimer = ⟨some (), []⟩
  endpoint : ∃ ep, p.drive.intf.nvmeEP = some ep

theorem run_tick (cfg : Config) (hp : p.Sanitizing) :
    Run (Step cfg) p [.expire, .tick] ⟨p.drive.call cfg (.sanitizeLog p.drive.ctrl), false⟩ := by
  obtain ⟨d, aborted⟩ := p
  obtain ⟨rfl, hpresence, hoperation, hprogress, htimer, -⟩ := hp
  have hexpire : Step cfg ⟨d, false⟩ .expire ⟨{ d with scanTimer := ⟨none, [()]⟩ }, false⟩ := by
    change (d.scanTimer.expire.map fun t => (⟨{ d with scanTimer := t }, false⟩ : Process)) = _
    rw [htimer]
    rfl
  have htick : Step cfg ⟨{ d with scanTimer := ⟨none, [()]⟩ }, false⟩ .tick
      ⟨d.call cfg (.sanitizeLog d.ctrl), false⟩ := by
    change some (⟨({ d with scanTimer := ⟨none, []⟩ } : NVMeDevice).tick cfg, false⟩ : Process) = _
    unfold NVMeDevice.tick
    rw [if_neg (by rw [hpresence]; decide), if_pos ⟨hoperation, hprogress⟩]
    unfold NVMeDevice.pollDrive NVMeDevice.call
    rw [htimer]
    rfl
  exact (Run.nil.snoc hexpire).snoc htick

theorem sanitizing_tick (cfg : Config) (hp : p.Sanitizing) : ∃ p', Run (Step cfg) p [.expire, .tick] p' ∧ p'.Sanitizing ∧
    p'.drive.intf.queuedPolls.length = p.drive.intf.queuedPolls.length + 1 := by
  have hrun := run_tick cfg hp
  obtain ⟨-, hpresence, hoperation, hprogress, htimer, ep, hep⟩ := hp
  refine ⟨_, hrun, ⟨rfl, hpresence, hoperation, hprogress, htimer, ep, (NVMeMi.nvmeEP_submit _).trans hep⟩, ?_⟩
  change (p.drive.intf.submit cfg (.sanitizeLog p.drive.ctrl)).queuedPolls.length = _
  rw [NVMeMi.queuedPolls, NVMeMi.worker_submit hep, List.filter_append, List.length_append]
  rfl

theorem sanitizing_ticks (cfg : Config) (hp : p.Sanitizing) (n : Nat) : ∃ p',
    Run (Step cfg) p (List.replicate n [Event.expire, .tick]).flatten p' ∧ p'.Sanitizing ∧
      p'.drive.intf.queuedPolls.length = p.drive.intf.queuedPolls.length + n := by
  induction n with
  | zero => exact ⟨p, .nil, hp, rfl⟩
  | succ n ih =>
      obtain ⟨p₁, hrun₁, hp₁, hlength₁⟩ := ih
      obtain ⟨p₂, hrun₂, hp₂, hlength₂⟩ := sanitizing_tick cfg hp₁
      refine ⟨p₂, ?_, hp₂, ?_⟩
      · rw [List.replicate_succ', List.flatten_append, List.flatten_singleton]
        exact hrun₁.append hrun₂
      · rw [hlength₂, hlength₁, Nat.add_assoc]

/-- One initialization and one sanitize are enough for the queue to pass any bound. -/
theorem backlog_unbounded (n : Nat) : ∃ es p, Run (Step .standard) first es p ∧
    es.countP Event.isInitialize = 1 ∧ n ≤ p.drive.intf.queuedPolls.length := by
  have hfacts : (sanitizingRun.foldlM (next .standard) first).any (fun p =>
      p.aborted = false ∧ p.drive.presence = true ∧ p.drive.props.operation = .sanitize ∧
        p.drive.inProgress = true ∧ p.drive.scanTimer = ⟨some (), []⟩ ∧ p.drive.intf.nvmeEP.isSome) = true := by
    decide +kernel
  obtain ⟨p₁, hp₁, hfacts⟩ := (Option.any_eq_true _ _).mp hfacts
  obtain ⟨hrunning, hpresence, hoperation, hprogress, htimer, hep⟩ := of_decide_eq_true hfacts
  obtain ⟨p₂, hrun₂, -, hlength⟩ := sanitizing_ticks .standard
    ⟨hrunning, hpresence, hoperation, hprogress, htimer, Option.isSome_iff_exists.mp hep⟩ n
  refine ⟨_, p₂, (Run.of_foldlM hp₁).append hrun₂, ?_, ?_⟩
  · have hticks : (List.replicate n [Event.expire, .tick]).flatten.countP Event.isInitialize = 0 := by
      simp [Event.isInitialize]
    rw [List.countP_append, hticks]
    decide
  · rw [hlength]
    exact Nat.le_add_left _ _

end Process

end NvmeManager
