import NvmeManager.Device.Requests
import NvmeManager.System.Watch

/-!
# The phases of a sanitize

* `Phase` : where the sanitize of a drive is: there is none, it waits for the worker, its callback waits for the loop,
  or the drive knows of it;
* `Stamped` : no callback, and nothing that has been seen, is younger than the last command;
* `phase_quiet`, `phase_pop`, `phase_execute_sanitize` : the steps between the phases;
* `NVMeMi.sanitizes` : the sanitize requests that have not been handled.
-/

namespace NvmeManager

/-! ## Phases -/

/-- No callback is one of a sanitize; a log says how a sanitize ended only if none has been accepted since. -/
def NVMeMi.Clean (mi : NVMeMi) (running : Bool) (qs : List Pending) : Prop :=
  ∀ q ∈ qs, q.command.isSanitize = false ∧ (q.tellsEnd = true → mi.NoneSince q.madeAt ∧ running = false)

/-- Where the sanitize of a drive is; the last argument is `inProgress`. -/
inductive Phase (mi : NVMeMi) (seen : Nat) (running : Bool) : Bool → Prop
  | idle (worker : mi.worker.countP Command.isSanitize = 0) (io : ∀ q ∈ mi.io, ¬ q.Accepted)
      (ended : mi.NoneSince seen) : Phase mi seen running false
  | queued (worker : mi.worker.countP Command.isSanitize = 1) (io : ∀ q ∈ mi.io, ¬ q.Accepted)
      (ended : mi.NoneSince seen) : Phase mi seen running false
  /-- The drive accepted it when `k` commands had been made. -/
  | accepted {before behind : List Pending} {q : Pending} {k : Nat}
      (worker : mi.worker.countP Command.isSanitize = 0) (io : mi.io = before ++ q :: behind) (answer : q.Accepted)
      (first : ∀ q' ∈ before, ¬ q'.Accepted ∧ q'.madeAt ≤ k) (clean : mi.Clean running behind) (unseen : seen ≤ k)
      (since : ∃ m ∈ mi.made.drop k, m.accepted = true) : Phase mi seen running false
  | known (worker : mi.worker.countP Command.isSanitize = 0) (clean : mi.Clean running mi.io) : Phase mi seen running true

/-- Callbacks and observations are no younger than the last command. -/
structure Stamped (mi : NVMeMi) (seen : Nat) : Prop where
  seen : seen ≤ mi.made.length
  io : ∀ q ∈ mi.io, q.madeAt ≤ mi.made.length

section
variable {cfg : Config} {mi mi' : NVMeMi} {seen : Nat} {running inProgress : Bool} {q : Pending} {rest : List Pending}
  {c : Command}

theorem not_accepted (hc : q.command.isSanitize = false) : ¬ q.Accepted := by
  rintro ⟨hsanitize, _⟩
  rw [hc] at hsanitize
  cases hsanitize

theorem NVMeMi.NoneSince.mono {n n' : Nat} (h : mi.NoneSince n) (hn : n ≤ n') : mi.NoneSince n' :=
  fun m hm => h m (List.drop_subset_drop_left mi.made hn hm)

theorem clean_quiet {qs : List Pending} (hclean : mi.Clean running qs) (hquiet : Quiet running mi mi') :
    mi'.Clean running qs := by
  intro q hq
  obtain ⟨hc, hends⟩ := hclean q hq
  exact ⟨hc, fun h => ⟨hquiet.noneSince (hends h).1, (hends h).2⟩⟩

theorem stamped_quiet (hstamped : Stamped mi seen) (hquiet : Quiet running mi mi') : Stamped mi' seen := by
  have hle := hquiet.length_made
  obtain ⟨qs, hqs, hnew⟩ := hquiet.io
  refine ⟨Nat.le_trans hstamped.seen hle, ?_⟩
  rw [hqs]
  refine List.forall_mem_append.mpr ⟨fun q hq => Nat.le_trans (hstamped.io q hq) hle, fun q hq => ?_⟩
  exact (hnew q hq).2.2.2

theorem phase_quiet (h : Phase mi seen running inProgress) (hquiet : Quiet running mi mi') :
    Phase mi' seen running inProgress := by
  have hworker := hquiet.worker
  obtain ⟨qs, hqs, hnew⟩ := hquiet.io
  have hnot : ∀ q ∈ qs, ¬ q.Accepted := fun q hq => not_accepted (hnew q hq).1
  have hcleanNew : mi'.Clean running qs := by
    intro q hq
    obtain ⟨hc, hends, hlow, _⟩ := hnew q hq
    exact ⟨hc, fun h => ⟨hquiet.noneSince_of_le hlow, hends h⟩⟩
  cases h with
  | idle worker io ended =>
      refine .idle (hworker.trans worker) ?_ (hquiet.noneSince ended)
      rw [hqs]
      exact List.forall_mem_append.mpr ⟨io, hnot⟩
  | queued worker io ended =>
      refine .queued (hworker.trans worker) ?_ (hquiet.noneSince ended)
      rw [hqs]
      exact List.forall_mem_append.mpr ⟨io, hnot⟩
  | @accepted before behind q k worker io answer first clean unseen since =>
      have hio : mi'.io = before ++ q :: (behind ++ qs) := by
        rw [hqs, io, List.append_assoc, List.cons_append]
      refine .accepted (hworker.trans worker) hio answer first ?_ unseen ?_
      · exact List.forall_mem_append.mpr ⟨clean_quiet clean hquiet, hcleanNew⟩
      · obtain ⟨m, hm, hacc⟩ := since
        obtain ⟨ms, hms, _⟩ := hquiet.made
        refine ⟨m, ?_, hacc⟩
        rw [hms, List.drop_append]
        exact List.mem_append_left _ hm
  | known worker clean =>
      refine .known (hworker.trans worker) ?_
      rw [hqs]
      exact List.forall_mem_append.mpr ⟨clean_quiet clean hquiet, hcleanNew⟩

theorem le_seenAfter : seen ≤ q.seenAfter seen := by
  unfold Pending.seenAfter
  split
  · exact Nat.le_max_left _ _
  · exact Nat.le_refl _

theorem seenAfter_le {k : Nat} (hseen : seen ≤ k) (hq : q.madeAt ≤ k) : q.seenAfter seen ≤ k := by
  unfold Pending.seenAfter
  split
  · exact Nat.max_le.mpr ⟨hseen, hq⟩
  · exact hseen

theorem inProgressAfter_false (h : ¬ q.Accepted) : q.inProgressAfter false = false := by
  unfold Pending.inProgressAfter
  unfold Pending.Accepted at h
  split
  · next hc => simpa [hc] using h
  · exact ite_self _

theorem inProgressAfter_accepted (h : q.Accepted) : q.inProgressAfter false = true := by
  unfold Pending.inProgressAfter
  rw [if_pos h.1, h.2]
  rfl

theorem inProgressAfter_other (hc : q.command.isSanitize = false) :
    q.inProgressAfter inProgress = if q.tellsEnd then false else inProgress := by
  unfold Pending.inProgressAfter
  rw [hc, if_neg Bool.false_ne_true]

theorem stamped_pop (h : Stamped mi seen) (hio : mi.io = q :: rest) :
    Stamped { mi with io := rest } (q.seenAfter seen) := by
  have hstamps := h.io
  rw [hio] at hstamps
  exact ⟨seenAfter_le h.seen (hstamps q List.mem_cons_self), fun q' hq' => hstamps q' (List.mem_cons_of_mem _ hq')⟩

theorem phase_pop (h : Phase mi seen running inProgress) (hio : mi.io = q :: rest) :
    Phase { mi with io := rest } (q.seenAfter seen) running (q.inProgressAfter inProgress) := by
  cases h with
  | idle worker io ended =>
      rw [hio] at io
      rw [inProgressAfter_false (io q List.mem_cons_self)]
      exact .idle worker (fun q' hq' => io q' (List.mem_cons_of_mem _ hq')) (ended.mono le_seenAfter)
  | queued worker io ended =>
      rw [hio] at io
      rw [inProgressAfter_false (io q List.mem_cons_self)]
      exact .queued worker (fun q' hq' => io q' (List.mem_cons_of_mem _ hq')) (ended.mono le_seenAfter)
  | @accepted before behind q' k worker io answer first clean unseen since =>
      rw [hio] at io
      cases before with
      | nil =>
          obtain ⟨rfl, rfl⟩ := List.cons.inj io
          rw [inProgressAfter_accepted answer]
          exact .known worker clean
      | cons q'' before =>
          obtain ⟨rfl, hrest⟩ := List.cons.inj io
          obtain ⟨hnot, hstamp⟩ := first q List.mem_cons_self
          rw [inProgressAfter_false hnot]
          exact .accepted worker hrest answer (fun q' hq' => first q' (List.mem_cons_of_mem _ hq')) clean
            (seenAfter_le unseen hstamp) since
  | known worker clean =>
      rw [hio] at clean
      have hrest : ∀ q' ∈ rest, q'.command.isSanitize = false ∧
          (q'.tellsEnd = true → mi.NoneSince q'.madeAt ∧ running = false) :=
        fun q' hq' => clean q' (List.mem_cons_of_mem _ hq')
      obtain ⟨hc, hends⟩ := clean q List.mem_cons_self
      rw [inProgressAfter_other hc]
      split
      · next hend =>
          refine .idle worker (fun q' hq' => not_accepted (hrest q' hq').1) ?_
          refine (hends hend).1.mono ?_
          unfold Pending.seenAfter
          rw [if_pos hend]
          exact Nat.le_max_right _ _
      · exact .known worker hrest

end

/-! ## The worker -/

section
variable {cfg : Config} {mi mi' : NVMeMi} {seen : Nat} {running inProgress : Bool} {rest : List Command}
  {c : Command} {lib : Libnvme} {errno : Int} {ep : Endpoint} {n : Nat}

theorem Command.Makes.isSanitize {call : NvmeCall} (h : c.Makes call) : call.isSanitize = c.isSanitize := by
  cases c <;> cases call <;>
    first
      | exact h.elim
      | rfl

theorem ended_zeros : ended (SanitizeLogPage.parse (zeros sizeofSanitizeLogPage)).res = false := rfl

/-- While a sanitize is running, no log that is read says that it has ended: it says that it is in progress, or the
read fails and the log is zero. -/
theorem not_tellsEnd_execute {r : Reply}
    (htruthful : ∀ ctrl, (lib 0 (.getLogSanitize ctrl)).rc = 0 →
      (SanitizeLogPage.parse ((lib 0 (.getLogSanitize ctrl)).fill sizeofSanitizeLogPage
        (zeros sizeofSanitizeLogPage))).res = NVME_SANITIZE_SSTAT_STATUS_IN_PROGESS)
    (hr : r ∈ ((c.request cfg).executed lib errno ep).posted) : (⟨c, r, n⟩ : Pending).tellsEnd = false := by
  cases c with
  | sanitizeLog ctrl =>
      rw [posted_sanitizeLog] at hr
      obtain rfl := List.mem_singleton.mp hr
      change (true && ended (SanitizeLogPage.parse ((lib 0 (.getLogSanitize ctrl)).fill sizeofSanitizeLogPage
        (zeros sizeofSanitizeLogPage))).res) = false
      rw [Bool.true_and]
      by_cases hrc : (lib 0 (.getLogSanitize ctrl)).rc = 0
      · rw [htruthful ctrl hrc]
        rfl
      · rw [Answer.fill, if_neg hrc]
        exact ended_zeros
  | scan | identify | portInformation | health | smart | sanitize => rfl

theorem quiet_execute {w : Watch} {mi' : NVMeMi} (htruthful : w.Truthful (.execute lib errno))
    (h : w.mi.execute cfg lib errno = some mi') (hworker : w.mi.worker = c :: rest) (hc : c.isSanitize = false) :
    Quiet w.running w.mi mi' := by
  obtain ⟨ep, c', rest', hep, hworker', rfl⟩ := NVMeMi.execute_eq_some h
  obtain ⟨rfl, rfl⟩ := List.cons.inj (hworker.symm.trans hworker')
  refine ⟨⟨_, rfl, ?_⟩, ?_, ⟨_, rfl, ?_⟩⟩
  · intro m hm
    have hcall : m.call.isSanitize = c.isSanitize := (made_request hm).isSanitize
    unfold Made.accepted
    rw [hcall, hc, Bool.false_and]
  · rw [hworker, List.countP_cons, hc]
    simp
  · intro q hq
    obtain ⟨r, hr, rfl⟩ := List.mem_map.mp hq
    refine ⟨hc, ?_, ?_, Nat.le_refl _⟩
    · intro hend
      by_contra hrunning
      rw [Bool.not_eq_false] at hrunning
      rw [not_tellsEnd_execute (htruthful hrunning) hr] at hend
      cases hend
    · rw [List.length_append]
      exact Nat.le_add_right _ _

theorem isSanitize_sanitizeCall (ctrl : Ctrl) (type : EraseMethod) (passes : UInt16) :
    (sanitizeCall ctrl type passes).isSanitize = true := by
  cases type <;> rfl

/-- The worker executes a sanitize: one command is made, and its callback is an error unless it was accepted. -/
theorem execute_sanitize (h : mi.execute cfg lib errno = some mi') (hworker : mi.worker = c :: rest)
    (hc : c.isSanitize = true) :
    ∃ m q, mi'.worker = rest ∧ mi'.made = mi.made ++ [m] ∧ mi'.io = mi.io ++ [q] ∧
      q.madeAt = mi'.made.length ∧ q.command = c ∧ (q.Accepted ↔ m.accepted = true) := by
  obtain ⟨ep, c', rest', hep, hworker', rfl⟩ := NVMeMi.execute_eq_some h
  obtain ⟨rfl, rfl⟩ := List.cons.inj (hworker.symm.trans hworker')
  cases c with
  | sanitize ctrl type passes =>
      obtain ⟨r, hmade, hposted, hr⟩ := @executed_sanitize cfg lib errno ep ctrl type passes
      rw [hmade, hposted]
      refine ⟨_, _, rfl, rfl, rfl, rfl, rfl, ?_⟩
      unfold Pending.Accepted Made.accepted
      rw [isSanitize_sanitizeCall, Bool.true_and, beq_iff_eq]
      exact ⟨fun h => hr.mp h.2, fun h => ⟨rfl, hr.mpr h⟩⟩
  | scan | identify | portInformation | health | smart | sanitizeLog => cases hc

theorem phase_execute_sanitize (h : Phase mi seen running inProgress) (hstamped : Stamped mi seen)
    (hmi : mi.execute cfg lib errno = some mi') (hworker : mi.worker = c :: rest) (hc : c.isSanitize = true)
    (running' : Bool) : Phase mi' seen running' inProgress ∧ Stamped mi' seen := by
  obtain ⟨m, q, hrest, hmade, hio, hmadeAt, hq, hacc⟩ := execute_sanitize hmi hworker hc
  have hlength : mi'.made.length = mi.made.length + 1 := by
    rw [hmade, List.length_append, List.length_singleton]
  have hcount : mi.worker.countP Command.isSanitize = mi'.worker.countP Command.isSanitize + 1 := by
    rw [hworker, hrest, List.countP_cons, if_pos hc]
  refine ⟨?_, ?_, ?_⟩
  · cases h with
    | idle worker | accepted worker | known worker => omega
    | queued worker io ended =>
        have hnone : mi'.worker.countP Command.isSanitize = 0 := by omega
        by_cases haccepted : m.accepted = true
        · refine .accepted hnone hio (hacc.mpr haccepted) ?_ (fun _ hm => absurd hm List.not_mem_nil)
            hstamped.seen ⟨m, ?_, haccepted⟩
          · exact fun q' hq' => ⟨io q' hq', hstamped.io q' hq'⟩
          · rw [hmade, List.drop_left]
            exact List.mem_singleton_self m
        · rw [← hacc] at haccepted
          refine .idle hnone ?_ ?_
          · rw [hio]
            refine List.forall_mem_append.mpr ⟨io, fun q' hq' => ?_⟩
            rwa [List.mem_singleton.mp hq']
          · intro m' hm'
            rw [hmade, List.drop_append] at hm'
            rcases List.mem_append.mp hm' with hm' | hm'
            · exact ended m' hm'
            · rw [List.mem_singleton.mp (List.mem_of_mem_drop hm'), ← Bool.not_eq_true, ← hacc]
              exact haccepted
  · exact Nat.le_trans hstamped.seen (by omega)
  · rw [hio]
    refine List.forall_mem_append.mpr ⟨fun q' hq' => Nat.le_trans (hstamped.io q' hq') (by omega), fun q' hq' => ?_⟩
    obtain rfl := List.mem_singleton.mp hq'
    exact Nat.le_of_eq hmadeAt

end

/-! ## Counting -/

def NVMeMi.sanitizes (mi : NVMeMi) : Nat := mi.outstanding.countP Command.isSanitize

section
variable {cfg : Config} {mi mi' : NVMeMi} {running : Bool} {q : Pending} {c : Command} {lib : Libnvme} {errno : Int}

theorem sanitizes_eq : mi.sanitizes =
    (mi.io.map Pending.command).countP Command.isSanitize + mi.worker.countP Command.isSanitize := by
  unfold NVMeMi.sanitizes NVMeMi.outstanding
  exact List.countP_append

theorem sanitizes_quiet (h : Quiet running mi mi') : mi'.sanitizes = mi.sanitizes := by
  obtain ⟨qs, hqs, hnew⟩ := h.io
  have hnone : (qs.map Pending.command).countP Command.isSanitize = 0 := by
    rw [List.countP_eq_zero, List.forall_mem_map]
    intro q hq
    rw [(hnew q hq).1]
    exact Bool.false_ne_true
  rw [sanitizes_eq, sanitizes_eq, hqs, h.worker, List.map_append, List.countP_append, hnone, Nat.add_zero]

theorem sanitizes_pop {rest : List Pending} (hio : mi.io = q :: rest) :
    ({ mi with io := rest } : NVMeMi).sanitizes ≤ mi.sanitizes := by
  rw [sanitizes_eq, sanitizes_eq, hio, List.map_cons, List.countP_cons]
  dsimp only
  omega

theorem sanitizes_execute {rest : List Command} (h : mi.execute cfg lib errno = some mi')
    (hworker : mi.worker = c :: rest) (hc : c.isSanitize = true) : mi'.sanitizes = mi.sanitizes := by
  obtain ⟨m, q, hrest, _, hio, _, hq, _⟩ := execute_sanitize h hworker hc
  rw [sanitizes_eq, sanitizes_eq, hio, hworker, hrest, List.map_append, List.countP_append, List.map_singleton, hq,
    List.countP_singleton, List.countP_cons, if_pos hc]
  omega

end
end NvmeManager
