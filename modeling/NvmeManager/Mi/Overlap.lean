import NvmeManager.Mi.Calls
import NvmeManager.Mi.Threads

/-!
# Commands that overlap

* `Closure.Quiet`, `Closure.Commands` : a closure that makes no command and leaves the timeout alone, and one that makes
  a command whatever the answers;
* `MiRequest.Commands` : the requests that have the worker make a command;
* `Threads.QuietOn` : a thread and its queue have quiet closures only; `quietOn_of_run` : they stay so;
* `Threads.Solo` : one thread goes on while the other stands still; `solo_calling` : it comes to a command;
* `exclusive_iff` : commands cannot overlap, unless a firmware commit is requested beside a request that has the worker
  make a command.
-/

namespace NvmeManager
open Closure

/-! ## Closures -/

/-- The closure makes no command and leaves the timeout alone. -/
def Closure.Quiet {α : Type} (p : Closure α) : Prop := p.Uses fun o => (∀ c, o ≠ .nvme c) ∧ o.setsTimeout = false

def Closure.Commands {α : Type} (p : Closure α) : Prop := p.Meets fun o => ∃ c, o = .nvme c

theorem commands_nvme (c : NvmeCall) : (nvme c).Commands := Prog.meets_perform ⟨c, rfl⟩

theorem quiet_ioPost (r : Reply) : (ioPost r).Quiet := ⟨⟨nofun, rfl⟩, fun _ => trivial⟩

theorem quiet_errno : errno.Quiet := ⟨⟨nofun, rfl⟩, fun _ => trivial⟩

theorem eq_worker_of_queued {sub : Submission} {c : Closure Unit} (h : .task c ∈ sub.queued .worker) :
    sub = .worker c := by
  cases sub with
  | worker c' =>
      cases List.mem_singleton.mp h
      rfl
  | called | posted | loop => cases h

theorem eq_loop_of_queued {sub : Submission} {c : Closure Unit} (h : .task c ∈ sub.queued .loop) : sub = .loop c := by
  cases sub with
  | loop c' =>
      cases List.mem_singleton.mp h
      rfl
  | posted r =>
      cases List.mem_singleton.mp h
  | called | worker => cases h

namespace MiRequest

/-- On a valid endpoint the request has the worker make a command. -/
def Commands : MiRequest → Prop
  | adminGetLogPage _ lid _ lsp _ => ReadsLog lid lsp
  | adminSecurityReceive _ _ _ transfer_length => transfer_length.toNat ≤ NVMeMi.maxNVMeMILength
  | adminFwCommit .. => False
  | _ => True

def CommitsFirmware : MiRequest → Prop
  | adminFwCommit .. => True
  | _ => False

theorem commands_readLog {ctrl : Ctrl} {lid : LogLid} {nsid : UInt32} {lsp : UInt8} (h : ReadsLog lid lsp) :
    (NVMeMi.readLog ctrl lid nsid lsp).Commands := by
  have htelemetry : ∀ host create, (NVMeMi.getTelemetryLog ctrl host create).Commands := by
    intro host create
    exact .ite (.bind (commands_nvme _) _) (.bind (commands_nvme _) _)
  cases lid with
  | other => exact h.elim
  | telemetryHost =>
      unfold NVMeMi.readLog
      by_cases hcreate : lsp = NVMeMi.lspCreate
      · rw [if_pos hcreate]
        exact htelemetry true true
      · rw [if_neg hcreate, if_pos (h.resolve_left hcreate)]
        exact htelemetry true false
  | telemetryCtrl => exact htelemetry false false
  | _ => exact .bind (commands_nvme _) _

theorem quiet_readLog {ctrl : Ctrl} {lid : LogLid} {nsid : UInt32} {lsp : UInt8} (h : ¬ ReadsLog lid lsp) :
    (NVMeMi.readLog ctrl lid nsid lsp).Quiet := by
  have hnone : (do setErrno 22; pure (-1, []) : Closure (Int × List UInt8)).Quiet :=
    ⟨⟨nofun, rfl⟩, fun _ => trivial⟩
  cases lid with
  | other => exact hnone
  | telemetryHost =>
      obtain ⟨hcreate, hretain⟩ := not_or.mp h
      unfold NVMeMi.readLog
      rw [if_neg hcreate, if_neg hretain]
      exact hnone
  | _ => exact absurd trivial h

theorem commands_worker {r : MiRequest} (h : r.Commands) : ∃ c, r.submit true = .worker c ∧ c.Commands := by
  cases r with
  | miPCIePortInformation | miSubsystemHealthStatusPoll | miScanCtrl | adminSanitize =>
      exact ⟨_, rfl, .bind (commands_nvme _) _⟩
  | adminSecuritySend => exact ⟨_, rfl, .bind (commands_nvme _) _⟩
  | adminIdentify => exact ⟨_, rfl, .ite (.bind (commands_nvme _) _) (.bind (commands_nvme _) _)⟩
  | adminGetLogPage => exact ⟨_, rfl, .bind (commands_readLog h) _⟩
  | adminXfer =>
      refine ⟨_, rfl, Prog.meets_bind _ fun _ => Prog.meets_bind _ fun _ => .bind (commands_nvme _) _⟩
  | adminSecurityReceive =>
      refine ⟨_, if_neg (Nat.not_lt_of_le h), .bind (commands_nvme _) _⟩
  | adminFwCommit => exact h.elim

theorem commands_loop {r : MiRequest} (h : r.CommitsFirmware) : ∃ c, r.submit true = .loop c ∧ c.Commands := by
  cases r with
  | adminFwCommit => exact ⟨_, rfl, .bind (commands_nvme _) _⟩
  | miPCIePortInformation | miSubsystemHealthStatusPoll | miScanCtrl | adminIdentify | adminSanitize | adminGetLogPage
  | adminXfer | adminSecuritySend | adminSecurityReceive => exact h.elim

theorem commitsFirmware_of_loop {r : MiRequest} {nvmeEP : Bool} {c : Closure Unit} (h : r.submit nvmeEP = .loop c) :
    nvmeEP = true ∧ r.CommitsFirmware := by
  cases r with
  | adminFwCommit =>
      cases nvmeEP with
      | true => exact ⟨rfl, trivial⟩
      | false => cases h
  | adminSecuritySend => cases h
  | adminSecurityReceive =>
      unfold submit at h
      dsimp only at h
      split at h
      · cases h
      · cases h
  | miPCIePortInformation | miSubsystemHealthStatusPoll | miScanCtrl | adminIdentify | adminSanitize | adminGetLogPage
  | adminXfer =>
      cases nvmeEP with
      | true => cases h
      | false => cases h

theorem quiet_worker {r : MiRequest} {c : Closure Unit} (h : ¬ r.Commands) (hc : r.submit true = .worker c) : c.Quiet := by
  cases r with
  | miPCIePortInformation | miSubsystemHealthStatusPoll | miScanCtrl | adminSanitize | adminIdentify | adminXfer
  | adminSecuritySend => exact absurd trivial h
  | adminFwCommit => cases hc
  | adminSecurityReceive =>
      rw [submit, if_pos (Nat.lt_of_not_le h)] at hc
      cases hc
  | adminGetLogPage =>
      cases hc
      refine .bind (quiet_readLog h) fun _ => .ite ?_ (.ite ?_ ?_)
      · exact .bind quiet_errno fun _ => quiet_ioPost _
      · exact .bind (quiet_ioPost _) fun _ => quiet_ioPost _
      · exact quiet_ioPost _

end MiRequest

/-! ## A quiet thread -/

/-- What a thread does is quiet: it is not inside a command, and it has not changed the timeout. -/
def Doing.Quiet : Doing → Prop
  | idle => True
  | lock c => c.Quiet
  | between rest changed => rest.Quiet ∧ changed = false
  | calling .. => False

theorem Doing.Quiet.isCalling {d : Doing} (h : d.Quiet) : d.isCalling = false := by
  cases d with
  | calling => exact h.elim
  | idle | lock | between => rfl

theorem Doing.Quiet.changed {d : Doing} (h : d.Quiet) : d.changed = false := by
  cases d with
  | calling => exact h.elim
  | between => exact h.2
  | idle | lock => rfl

namespace Threads
variable {nvmeEP : Bool} {t t' : Threads} {s s' : Side} {e : Event}

/-- A thread and its queue have quiet closures only. -/
structure QuietOn (s : Side) (t : Threads) : Prop where
  doing : (t.doing s).Quiet
  queue : ∀ c, .task c ∈ t.queue s → c.Quiet

theorem task_mem_store {th : Thread} {c : Closure Unit} (h : .task c ∈ (t.store s th).queue s') :
    .task c ∈ t.queue s' := by
  obtain ⟨rs, hrs⟩ := queue_store t s th s'
  rw [hrs, List.mem_append] at h
  refine h.resolve_right fun hmem => ?_
  obtain ⟨r, -, hr⟩ := List.mem_map.mp hmem
  cases hr

theorem QuietOn.setDoing {d : Doing} (hs : t.QuietOn s) (hd : s = s' → d.Quiet) (hdoing : t'.doing = t.doing)
    (hqueue : ∀ c, .task c ∈ t'.queue s → .task c ∈ t.queue s) : (t'.setDoing s' d).QuietOn s := by
  refine ⟨?_, fun c hc => hs.queue c (hqueue c hc)⟩
  by_cases hss : s = s'
  · subst hss
    rw [doing_setDoing]
    exact hd rfl
  · rw [doing_setDoing_of_ne hss, hdoing]
    exact hs.doing

theorem quiet_first {c : Closure Unit} (hc : c.Quiet) : (first s c).Quiet := by
  cases s with
  | worker => exact hc
  | loop => exact ⟨hc, rfl⟩

theorem task_mem_setQueue {h : Handler} {rest : List Handler} {c : Closure Unit} (hqueue : t.queue s' = h :: rest)
    (hc : .task c ∈ (t.setQueue s' rest).queue s) : .task c ∈ t.queue s := by
  by_cases hss : s = s'
  · subst hss
    rw [queue_setQueue] at hc
    rw [hqueue]
    exact List.mem_cons_of_mem _ hc
  · rwa [queue_setQueue_of_ne hss] at hc

theorem quietOn_of_move (hs : t.QuietOn s) (h : Move nvmeEP t e t')
    (hrequest : ∀ r, e = .request r → ∀ c, .task c ∈ (r.submit nvmeEP).queued s → c.Quiet) : t'.QuietOn s := by
  cases h with
  | request hidle =>
      refine ⟨hs.doing, fun c hc => ?_⟩
      rcases List.mem_append.mp hc with hc | hc
      · exact hs.queue c hc
      · exact hrequest _ rfl c hc
  | callback hidle hqueue => exact ⟨hs.doing, fun c hc => hs.queue c (task_mem_setQueue hqueue hc)⟩
  | task hidle hqueue =>
      refine hs.setDoing ?_ rfl fun c => task_mem_setQueue hqueue
      rintro rfl
      refine quiet_first (hs.queue _ ?_)
      rw [hqueue]
      exact List.mem_cons_self
  | lock hlock hmtx =>
      refine hs.setDoing ?_ rfl fun c => id
      rintro rfl
      have hd := hs.doing
      rw [hlock] at hd
      exact ⟨hd, rfl⟩
  | finish hret => exact hs.setDoing (fun _ => trivial) rfl fun c => id
  | call hcall =>
      refine hs.setDoing ?_ rfl fun c => id
      rintro rfl
      have hd := hs.doing
      rw [hcall] at hd
      exact absurd rfl (hd.1.1.1 _)
  | perform ho hperform =>
      refine hs.setDoing ?_ rfl fun c => task_mem_store
      rintro rfl
      have hd := hs.doing
      rw [hperform] at hd
      refine ⟨hd.1.2 _, ?_⟩
      rw [hd.2, hd.1.1.2]
      rfl
  | answer hcalling =>
      refine hs.setDoing ?_ rfl fun c => task_mem_store
      rintro rfl
      have hd := hs.doing
      rw [hcalling] at hd
      exact hd.elim

def Event.request? : Event → Option MiRequest
  | request r => some r
  | take _ | advance _ | answer .. => none

def requests (es : List Event) : List MiRequest := es.filterMap Event.request?

theorem requests_append (es es' : List Event) : requests (es ++ es') = requests es ++ requests es' :=
  List.filterMap_append

theorem quietOn_of_run {ep : Endpoint} {es : List Event} (hrun : Run (Step nvmeEP) (start ep) es t)
    (h : ∀ r ∈ requests es, ∀ c, .task c ∈ (r.submit nvmeEP).queued s → c.Quiet) : t.QuietOn s := by
  refine hrun.history_invariant (fun es t => (∀ r ∈ requests es, ∀ c, .task c ∈ (r.submit nvmeEP).queued s → c.Quiet) →
    t.QuietOn s) (fun _ => ⟨trivial, nofun⟩) ?_ h
  intro es u e u' ih hstep hreq
  rw [requests_append] at hreq
  refine quietOn_of_move (ih fun r hr => hreq r (List.mem_append_left _ hr)) (move_of_step hstep) ?_
  rintro r rfl
  exact hreq r (List.mem_append_right _ (List.mem_singleton_self r))

/-- Commands cannot overlap where one of the threads is quiet. -/
theorem exclusive_of_quietOn (h : t.QuietOn s) : t.Exclusive := by
  intro s₁ s₂ hne hcalling
  have hs : s₂ = s := by
    by_contra hs₂
    have hs₁ : s₁ = s := by
      revert hne hs₂
      cases s₁ <;> cases s₂ <;> cases s <;> simp
    rw [hs₁, h.doing.isCalling] at hcalling
    cases hcalling
  rw [hs]
  exact ⟨h.doing.isCalling, h.doing.changed⟩

/-! ## A thread alone -/

def Event.side? : Event → Option Side
  | request _ => none
  | take s | advance s | answer s _ => some s

/-- One thread goes on while the other stands still. -/
def Solo (nvmeEP : Bool) (s : Side) (t t' : Threads) : Prop :=
  ∃ es, Run (guarded (fun _ e => e.side? = some s) (Step nvmeEP)) t es t'

theorem Solo.refl (nvmeEP : Bool) (s : Side) (t : Threads) : Solo nvmeEP s t t := ⟨[], .nil⟩

theorem Solo.step {t'' : Threads} (h : Solo nvmeEP s t t') (he : e.side? = some s) (hstep : t'.next nvmeEP e = some t'') :
    Solo nvmeEP s t t'' := by
  obtain ⟨es, hrun⟩ := h
  exact ⟨es ++ [e], hrun.snoc ⟨he, hstep⟩⟩

theorem Solo.trans {t'' : Threads} (h : Solo nvmeEP s t t') (h' : Solo nvmeEP s t' t'') : Solo nvmeEP s t t'' := by
  obtain ⟨es, hrun⟩ := h
  obtain ⟨es', hrun'⟩ := h'
  exact ⟨es ++ es', hrun.append hrun'⟩

theorem Solo.run (h : Solo nvmeEP s t t') : ∃ es, Run (Step nvmeEP) t es t' ∧ requests es = [] := by
  obtain ⟨es, hrun⟩ := h
  refine ⟨es, hrun.map id fun _ _ _ h => h.2, ?_⟩
  refine hrun.history_invariant (fun es _ => requests es = []) rfl ?_
  rintro es u e u' ih ⟨he, -⟩
  rw [requests_append, ih]
  cases e with
  | request r => cases he
  | take | advance | answer => rfl

/-- Callbacks have been added to a queue. -/
def Extends (q q' : List Handler) : Prop := ∃ rs : List Reply, q' = q ++ rs.map .callback

theorem Extends.refl (q : List Handler) : Extends q q := ⟨[], (List.append_nil q).symm⟩

theorem Extends.trans {q q' q'' : List Handler} (h : Extends q q') (h' : Extends q' q'') : Extends q q'' := by
  obtain ⟨rs, rfl⟩ := h
  obtain ⟨rs', rfl⟩ := h'
  exact ⟨rs ++ rs', by rw [List.map_append, List.append_assoc]⟩

/-- The other thread is where it was, and its queue has got no closure. -/
theorem frame_of_move (h : Move nvmeEP t e t') (he : e.side? = some s) (hs : s' ≠ s) :
    t'.doing s' = t.doing s' ∧ Extends (t.queue s') (t'.queue s') := by
  cases h with
  | request => cases he
  | callback =>
      obtain rfl := Option.some.inj he
      rw [queue_setQueue_of_ne hs]
      exact ⟨rfl, .refl _⟩
  | task =>
      obtain rfl := Option.some.inj he
      rw [queue_setDoing, queue_setQueue_of_ne hs]
      exact ⟨doing_setDoing_of_ne hs, .refl _⟩
  | lock | finish | call =>
      obtain rfl := Option.some.inj he
      exact ⟨doing_setDoing_of_ne hs, .refl _⟩
  | @perform s₁ =>
      obtain rfl := Option.some.inj he
      exact ⟨doing_setDoing_of_ne hs, queue_store t s₁ _ s'⟩
  | @answer s₁ =>
      obtain rfl := Option.some.inj he
      exact ⟨doing_setDoing_of_ne hs, queue_store t s₁ _ s'⟩

theorem Solo.frame (h : Solo nvmeEP s t t') (s' : Side) (hs : s' ≠ s) :
    t'.doing s' = t.doing s' ∧ Extends (t.queue s') (t'.queue s') := by
  obtain ⟨es, hrun⟩ := h
  refine hrun.guarded_invariant (fun u => u.doing s' = t.doing s' ∧ Extends (t.queue s') (u.queue s'))
    ⟨rfl, .refl _⟩ ?_
  rintro u e u' ⟨hdoing, hqueue⟩ he hstep
  obtain ⟨hdoing', hqueue'⟩ := frame_of_move (move_of_step hstep) he hs
  exact ⟨hdoing'.trans hdoing, hqueue.trans hqueue'⟩

theorem solo_first (nvmeEP : Bool) {c : Closure Unit} {rest : List Handler} (hidle : t.doing s = .idle)
    (hqueue : t.queue s = .task c :: rest) (hmtx : s = .worker → t.mctpMtx = false) :
    ∃ t', Solo nvmeEP s t t' ∧ t'.doing s = .between c false ∧ t'.queue s = rest := by
  have htake : t.next nvmeEP (.take s) = some ((t.setQueue s rest).setDoing s (first s c)) := by
    simp only [next, hidle, hqueue]
  cases s with
  | loop =>
      refine ⟨_, (Solo.refl ..).step rfl htake, doing_setDoing, ?_⟩
      rw [queue_setDoing, queue_setQueue]
  | worker =>
      have hlock : ((t.setQueue .worker rest).setDoing .worker (.lock c)).next nvmeEP (.advance .worker) =
          some ({ (t.setQueue .worker rest).setDoing .worker (.lock c) with mctpMtx := true }.setDoing .worker
            (.between c false)) := by
        simp [next, hmtx rfl]
      refine ⟨_, ((Solo.refl ..).step rfl htake).step rfl hlock, doing_setDoing, ?_⟩
      change ((t.setQueue .worker rest).setDoing .worker (.lock c)).queue .worker = rest
      rw [queue_setDoing, queue_setQueue]

theorem solo_op (nvmeEP : Bool) {o : Op} {k : o.Ans → Closure Unit} {changed : Bool} (hdoing : t.doing s = .between (.op o k) changed) :
    ∃ t' a changed', Solo nvmeEP s t t' ∧ t'.doing s = .between (k a) changed' ∧
      Extends (t.queue s) (t'.queue s) := by
  by_cases ho : ∀ c, o ≠ .nvme c
  · exact ⟨_, _, _, (Solo.refl ..).step rfl (next_perform ho hdoing), doing_setDoing, queue_store t s _ s⟩
  · obtain ⟨c, ho⟩ := not_forall.mp ho
    obtain rfl := not_not.mp ho
    have hcalling : (t.setDoing s (.calling c k changed)).doing s = .calling c k changed := doing_setDoing
    exact ⟨_, _, _, ((Solo.refl ..).step rfl (next_call hdoing)).step rfl (next_answer hcalling (.ok {})),
      doing_setDoing, queue_store (t.setDoing s (.calling c k changed)) s _ s⟩

theorem solo_finish (nvmeEP : Bool) (p : Closure Unit) {changed : Bool} (hdoing : t.doing s = .between p changed) :
    ∃ t', Solo nvmeEP s t t' ∧ t'.doing s = .idle ∧ (s = .worker → t'.mctpMtx = false) ∧
      Extends (t.queue s) (t'.queue s) := by
  induction p generalizing t changed with
  | ret u =>
      have hfinish : t.next nvmeEP (.advance s) = some (t.finish s) := by
        simp only [next, hdoing]
      refine ⟨t.finish s, (Solo.refl ..).step rfl hfinish, doing_setDoing, ?_, .refl _⟩
      rintro rfl
      rfl
  | op o k ih =>
      obtain ⟨t₁, a, changed₁, hsolo₁, hdoing₁, hqueue₁⟩ := solo_op nvmeEP hdoing
      obtain ⟨t₂, hsolo₂, hidle₂, hmtx₂, hqueue₂⟩ := ih a hdoing₁
      exact ⟨t₂, hsolo₁.trans hsolo₂, hidle₂, hmtx₂, hqueue₁.trans hqueue₂⟩

theorem solo_calling (nvmeEP : Bool) {p : Closure Unit} (hp : p.Commands) {changed : Bool} (hdoing : t.doing s = .between p changed) :
    ∃ t', Solo nvmeEP s t t' ∧ (t'.doing s).isCalling = true := by
  induction p generalizing t changed with
  | ret u => exact hp.elim
  | op o k ih =>
      rcases hp with ⟨c, rfl⟩ | hp
      · refine ⟨_, (Solo.refl ..).step rfl (next_call hdoing), ?_⟩
        rw [doing_setDoing]
        rfl
      · obtain ⟨t₁, a, changed₁, hsolo₁, hdoing₁, -⟩ := solo_op nvmeEP hdoing
        obtain ⟨t₂, hsolo₂, hcalling⟩ := ih a (hp a) hdoing₁
        exact ⟨t₂, hsolo₁.trans hsolo₂, hcalling⟩

/-- A thread whose queue has a closure that makes a command comes to it. -/
theorem solo_reach (nvmeEP : Bool) {c : Closure Unit} (hc : c.Commands) (before : List Handler) {after : List Handler}
    (hidle : t.doing s = .idle) (hqueue : t.queue s = before ++ .task c :: after)
    (hmtx : s = .worker → t.mctpMtx = false) : ∃ t', Solo nvmeEP s t t' ∧ (t'.doing s).isCalling = true := by
  induction before generalizing t after with
  | nil =>
      obtain ⟨t₁, hsolo₁, hdoing₁, -⟩ := solo_first nvmeEP hidle hqueue hmtx
      obtain ⟨t₂, hsolo₂, hcalling⟩ := solo_calling nvmeEP hc hdoing₁
      exact ⟨t₂, hsolo₁.trans hsolo₂, hcalling⟩
  | cons h before ih =>
      cases h with
      | callback r =>
          have htake : t.next nvmeEP (.take s) = some (t.setQueue s (before ++ .task c :: after)) := by
            simp [next, hidle, hqueue]
          obtain ⟨t₂, hsolo₂, hcalling⟩ := ih (t := t.setQueue s (before ++ .task c :: after)) hidle queue_setQueue hmtx
          exact ⟨t₂, ((Solo.refl ..).step rfl htake).trans hsolo₂, hcalling⟩
      | task c' =>
          obtain ⟨t₁, hsolo₁, hdoing₁, hqueue₁⟩ := solo_first nvmeEP hidle hqueue hmtx
          obtain ⟨t₂, hsolo₂, hidle₂, hmtx₂, rs, hqueue₂⟩ := solo_finish nvmeEP c' hdoing₁
          have hrest : t₂.queue s = before ++ .task c :: (after ++ rs.map .callback) := by
            rw [hqueue₂, hqueue₁]
            exact List.append_assoc ..
          obtain ⟨t₃, hsolo₃, hcalling⟩ := ih hidle₂ hrest hmtx₂
          exact ⟨t₃, (hsolo₁.trans hsolo₂).trans hsolo₃, hcalling⟩

/-! ## Which requests may overlap -/

/-- The requests have been made, and no thread has done anything. -/
def requested (nvmeEP : Bool) (ep : Endpoint) (rs : List MiRequest) : Threads :=
  { start ep with queue := fun s => rs.flatMap fun r => (r.submit nvmeEP).queued s }

theorem run_requested (nvmeEP : Bool) (ep : Endpoint) (rs : List MiRequest) :
    Run (Step nvmeEP) (start ep) (rs.map .request) (requested nvmeEP ep rs) := by
  induction rs using List.reverseRecOn with
  | nil => exact .nil
  | append_singleton rs r ih =>
      rw [List.map_append]
      refine ih.snoc ?_
      unfold requested
      simp only [List.flatMap_append, List.flatMap_singleton]
      rfl

theorem requests_request (rs : List MiRequest) : requests (rs.map .request) = rs := by
  unfold requests
  rw [List.filterMap_map]
  exact List.filterMap_some

theorem exists_queue (ep : Endpoint) {rs : List MiRequest} {r : MiRequest} (hr : r ∈ rs) {c : Closure Unit}
    (hc : (r.submit nvmeEP).queued s = [.task c]) :
    ∃ before after, (requested nvmeEP ep rs).queue s = before ++ .task c :: after := by
  obtain ⟨rs₁, rs₂, rfl⟩ := List.append_of_mem hr
  refine ⟨rs₁.flatMap fun r => (r.submit nvmeEP).queued s, rs₂.flatMap fun r => (r.submit nvmeEP).queued s, ?_⟩
  unfold requested
  simp only [List.flatMap_append, List.flatMap_cons, hc]
  rfl

/-- The endpoint is valid, and a firmware commit is requested, and something that has the worker make a command. -/
def Collides (nvmeEP : Bool) (rs : List MiRequest) : Prop :=
  nvmeEP = true ∧ (∃ r ∈ rs, r.CommitsFirmware) ∧ ∃ r ∈ rs, r.Commands

/-- Both threads come to a command: first the worker, then the loop. -/
theorem overlap_of_collides (ep : Endpoint) {rs : List MiRequest} (h : Collides nvmeEP rs) :
    ∃ es t, Run (Step nvmeEP) (start ep) es t ∧ requests es = rs ∧
      (t.doing .worker).isCalling = true ∧ (t.doing .loop).isCalling = true := by
  obtain ⟨rfl, ⟨r, hr, hcommit⟩, r', hr', hcommands⟩ := h
  obtain ⟨c, hc, hcommit⟩ := MiRequest.commands_loop hcommit
  obtain ⟨c', hc', hcommands⟩ := MiRequest.commands_worker hcommands
  have hqueued : (r.submit true).queued .loop = [.task c] := by
    rw [hc]
    rfl
  have hqueued' : (r'.submit true).queued .worker = [.task c'] := by
    rw [hc']
    rfl
  obtain ⟨before, after, hloop⟩ := exists_queue ep hr hqueued
  obtain ⟨before', after', hworker⟩ := exists_queue ep hr' hqueued'
  obtain ⟨t₁, hsolo₁, hcalling₁⟩ := solo_reach true hcommands before' rfl hworker fun _ => rfl
  obtain ⟨hidle₁, rs₁, hloop₁⟩ := hsolo₁.frame .loop (by decide)
  rw [hloop, List.append_assoc, List.cons_append] at hloop₁
  obtain ⟨t₂, hsolo₂, hcalling₂⟩ := solo_reach true hcommit before hidle₁ hloop₁ nofun
  obtain ⟨es₁, hrun₁, hes₁⟩ := hsolo₁.run
  obtain ⟨es₂, hrun₂, hes₂⟩ := hsolo₂.run
  refine ⟨_, t₂, ((run_requested true ep rs).append hrun₁).append hrun₂, ?_, ?_, hcalling₂⟩
  · rw [requests_append, requests_append, requests_request, hes₁, hes₂, List.append_nil, List.append_nil]
  · rw [(hsolo₂.frame .worker (by decide)).1]
    exact hcalling₁

/-- **Overlap.** In every run that makes the given requests no command is executing beside another, or while the timeout
is that of another request, if and only if they do not collide. -/
theorem exclusive_iff (nvmeEP : Bool) (ep : Endpoint) (rs : List MiRequest) :
    (∀ es t, Run (Step nvmeEP) (start ep) es t → requests es = rs → t.Exclusive) ↔ ¬ Collides nvmeEP rs := by
  refine ⟨fun hall hcollides => ?_, ?_⟩
  · obtain ⟨es, t, hrun, hreq, hworker, hloop⟩ := overlap_of_collides ep hcollides
    rw [(hall es t hrun hreq .worker .loop (by decide) hworker).1] at hloop
    cases hloop
  · rintro hnot es t hrun rfl
    by_cases hcommit : nvmeEP = true ∧ ∃ r ∈ requests es, r.CommitsFirmware
    · obtain ⟨rfl, hcommit⟩ := hcommit
      refine exclusive_of_quietOn (s := .worker) (quietOn_of_run hrun fun r hr c hc => ?_)
      refine MiRequest.quiet_worker (fun hcommands => ?_) (eq_worker_of_queued hc)
      exact hnot ⟨rfl, hcommit, r, hr, hcommands⟩
    · refine exclusive_of_quietOn (s := .loop) (quietOn_of_run hrun fun r hr c hc => ?_)
      obtain ⟨hvalid, hr'⟩ := MiRequest.commitsFirmware_of_loop (eq_loop_of_queued hc)
      exact absurd ⟨hvalid, r, hr, hr'⟩ hcommit

/-- A raw transfer with a timeout of a minute, and a firmware commit. -/
def overlapRequests : List MiRequest := [.adminXfer ⟨1, 0⟩ (zeros 68) [] 60000, .adminFwCommit ⟨1, 0⟩ 1 1 false]

/-- The worker is inside the transfer when the loop comes to the commit. -/
def overlapRun : List Event :=
  overlapRequests.map .request ++
    [.take .worker, .advance .worker, .advance .worker, .advance .worker, .advance .worker, .take .loop, .advance .loop]

/-- The firmware commit is executing beside the transfer, with its timeout. -/
theorem commit_overlaps_xfer : ∃ t, Run (Step true) (start ⟨1, [⟨1, 0⟩], 5000⟩) overlapRun t ∧
    requests overlapRun = overlapRequests ∧ ¬ t.Exclusive ∧ t.ep.timeout = 60000 := by
  have hfacts : (overlapRun.foldlM (next true) (start ⟨1, [⟨1, 0⟩], 5000⟩)).any (fun t =>
      (t.doing .worker).isCalling && (t.doing .loop).isCalling && t.ep.timeout = 60000) = true := by
    decide +kernel
  obtain ⟨t, ht, hfacts⟩ := (Option.any_eq_true _ _).mp hfacts
  rw [Bool.and_eq_true, Bool.and_eq_true, decide_eq_true_eq] at hfacts
  obtain ⟨⟨hworker, hloop⟩, htimeout⟩ := hfacts
  refine ⟨t, Run.of_foldlM ht, rfl, fun h => ?_, htimeout⟩
  rw [(h .worker .loop (by decide) hworker).1] at hloop
  cases hloop

end Threads
end NvmeManager
