import NvmeManager.System.Exchange
import NvmeManager.System.Sanitize

/-!
# One sanitize at a time

* `Watch.InPhase` : the invariant of the guarded runs;
* `Watch.Exclusive` : an event that keeps to one sanitize at a time;
* `exclusive_of_run` : in a run in which no client asks for a sanitize while the answer to the one before is still to
  come, every event does;
* `not_refused_of_overlaps` : the first client that does is not refused; `second_erase_accepted` is such a run.
-/

namespace NvmeManager.Watch

/-- The sanitize of the drive is in one of its phases. -/
structure InPhase (w : Watch) : Prop where
  phase : Phase w.mi w.seen w.running w.proc.drive.inProgress
  stamped : Stamped w.mi w.seen

/-- While a sanitize is outstanding the event submits none, and an `erase` throws; it leaves `inProgress` set while a
sanitize is running. -/
structure Exclusive (cfg : Config) (w : Watch) (e : Event) (w' : Watch) : Prop where
  refused : ∀ passes type, e = .process (.erase passes type) → w.Outstanding →
    w.proc.drive.erase cfg passes type = .error .NotAllowed
  single : w.Outstanding → ∀ pe, e = .process pe → ∃ cs, w.proc.Adds pe w'.proc cs ∧ ∀ c ∈ cs, c.isSanitize = false
  fewer : w.Outstanding → w'.mi.sanitizes ≤ w.mi.sanitizes
  kept : w.running = true → w.proc.drive.inProgress = true → w'.proc.drive.inProgress = true

section
variable {cfg : Config} {w w' : Watch} {p' : Process} {e : Event} {passes : UInt16} {type : EraseMethod}

/-! ## Steps -/

theorem startedBy_quiet {mi : NVMeMi} (hmade : mi.made = w.mi.made) (h : Quiet w.running mi p'.drive.intf) :
    w.startedBy p' = false := by
  obtain ⟨ms, hms, hnone⟩ := h.made
  unfold startedBy
  rw [hms, hmade, List.drop_left, List.any_eq_false]
  intro m hm
  rw [hnone m hm]
  exact Bool.false_ne_true

theorem inPhase_quiet {mi : NVMeMi} {seen : Nat} {inProgress : Bool} (hphase : Phase mi seen w.running inProgress)
    (hstamped : Stamped mi seen) (hmade : mi.made = w.mi.made) (hquiet : Quiet w.running mi p'.drive.intf)
    (hprogress : p'.drive.inProgress = inProgress) : InPhase ⟨p', seen, w.running || w.startedBy p'⟩ := by
  rw [startedBy_quiet hmade hquiet, Bool.or_false]
  refine ⟨?_, stamped_quiet hstamped hquiet⟩
  dsimp only
  rw [hprogress]
  exact phase_quiet hphase hquiet

/-- A client that does not overlap finds `inProgress` set, or no sanitize. -/
theorem inProgress_or_idle (h : w.InPhase) (hok : ¬ w.Overlaps (.process (.erase passes type))) :
    w.proc.drive.inProgress = true ∨ w.mi.worker.countP Command.isSanitize = 0 ∧ (∀ q ∈ w.mi.io, ¬ q.Accepted) ∧
      w.mi.NoneSince w.seen := by
  have hphase := h.phase
  generalize w.proc.drive.inProgress = inProgress at hphase
  cases hphase with
  | idle worker io ended => exact .inr ⟨worker, io, ended⟩
  | queued worker =>
      have hmem : ∃ c ∈ w.mi.worker, c.isSanitize = true := List.countP_pos_iff.mp (by omega)
      exact absurd (.inl hmem) hok
  | accepted worker io answer =>
      refine absurd (.inr ⟨_, ?_, answer⟩) hok
      rw [io]
      exact List.mem_append_right _ List.mem_cons_self
  | known => exact .inl rfl

theorem not_outstanding (hworker : w.mi.worker.countP Command.isSanitize = 0) (hnone : w.mi.NoneSince w.seen) :
    ¬ w.Outstanding := by
  rintro (⟨c, hc, hsanitize⟩ | ⟨m, hm, haccepted⟩)
  · exact List.countP_eq_zero.mp hworker c hc hsanitize
  · rw [hnone m hm] at haccepted
    cases haccepted

/-- The sanitize waits for the worker; without an endpoint its callback is posted with an error. -/
theorem inPhase_submit {c : Command} (hstamped : Stamped w.mi w.seen) (hc : c.isSanitize = true)
    (hworker : w.mi.worker.countP Command.isSanitize = 0) (hio : ∀ q ∈ w.mi.io, ¬ q.Accepted)
    (hnone : w.mi.NoneSince w.seen) (running : Bool) :
    Phase (w.mi.submit cfg c) w.seen running false ∧ Stamped (w.mi.submit cfg c) w.seen := by
  unfold NVMeMi.submit
  split
  · refine ⟨.idle hworker ?_ hnone, hstamped.seen, ?_⟩
    · refine List.forall_mem_append.mpr ⟨hio, fun q hq => ?_⟩
      obtain rfl := List.mem_singleton.mp hq
      exact fun haccepted => nomatch haccepted.2
    · refine List.forall_mem_append.mpr ⟨hstamped.io, fun q hq => ?_⟩
      obtain rfl := List.mem_singleton.mp hq
      exact Nat.le_refl _
  · refine ⟨.queued ?_ hio hnone, hstamped.seen, hstamped.io⟩
    dsimp only
    rw [List.countP_append, hworker, List.countP_singleton, if_pos hc]

theorem inPhase_erased {d : NVMeDevice} (h : w.InPhase) (hok : ¬ w.Overlaps (.process (.erase passes type)))
    (herase : w.proc.drive.erase cfg passes type = .ok d) (running : Bool) :
    InPhase ⟨⟨d, false⟩, w.seen, running⟩ := by
  obtain ⟨hprogress, hd⟩ := NVMeDevice.erase_eq_ok herase
  obtain ⟨hworker, hio, hnone⟩ := (inProgress_or_idle h hok).resolve_left (by rw [hprogress]; exact Bool.false_ne_true)
  rcases hd with ⟨_, rfl⟩ | ⟨_, rfl⟩
  · refine ⟨?_, h.stamped⟩
    dsimp only
    rw [hprogress]
    exact .idle hworker hio hnone
  · obtain ⟨hphase, hstamped⟩ :
        Phase (w.mi.submit cfg (.sanitize w.proc.drive.ctrl type passes)) w.seen running false ∧
          Stamped (w.mi.submit cfg (.sanitize w.proc.drive.ctrl type passes)) w.seen :=
      inPhase_submit h.stamped rfl hworker hio hnone running
    refine ⟨?_, hstamped⟩
    dsimp only [NVMeDevice.call]
    rw [hprogress]
    exact hphase

theorem seenBy_deliver {q : Pending} {rest : List Pending} (hio : w.mi.io = q :: rest) :
    w.seenBy .deliver = q.seenAfter w.seen := by
  unfold seenBy
  rw [hio]

theorem inPhase_turn {e : NvmeManager.Event} (h : w.InPhase) (hok : ¬ w.Overlaps (.process e))
    (htruthful : w.Truthful e) (hturn : w.proc.Turn cfg e p') :
    InPhase ⟨p', w.seenBy e, w.running || w.startedBy p'⟩ := by
  cases hturn with
  | initializeDrive => exact inPhase_quiet h.phase h.stamped rfl (.submit rfl) rfl
  | @inventory form driveAssoc =>
      refine inPhase_quiet h.phase h.stamped rfl ?_ NVMeDevice.inProgress_inventory
      rw [NVMeDevice.intf_inventory]
      exact .refl _
  | writeFault => exact inPhase_quiet h.phase h.stamped rfl (.refl _) rfl
  | refused => exact inPhase_quiet h.phase h.stamped rfl (.refl _) rfl
  | erased herase => exact inPhase_erased h hok herase _
  | expire => exact inPhase_quiet h.phase h.stamped rfl (.refl _) rfl
  | @tick t ht =>
      exact inPhase_quiet h.phase h.stamped rfl (NVMeDevice.quiet_tick { w.proc.drive with scanTimer := t })
        NVMeDevice.inProgress_tick
  | @execute lib errno mi' hmi =>
      obtain ⟨_, c, rest, _, hworker, _⟩ := NVMeMi.execute_eq_some hmi
      by_cases hc : c.isSanitize = true
      · obtain ⟨hphase, hstamped⟩ := phase_execute_sanitize h.phase h.stamped hmi hworker hc
          (w.running || w.startedBy ⟨{ w.proc.drive with intf := mi' }, false⟩)
        exact ⟨hphase, hstamped⟩
      · rw [Bool.not_eq_true] at hc
        exact inPhase_quiet h.phase h.stamped rfl (quiet_execute htruthful hmi hworker hc) rfl
  | @deliver q rest d hio hhandle =>
      have hquiet : Quiet w.running (w.proc.popped rest).intf d.intf := NVMeDevice.quiet_handle hhandle
      have hprogress : d.inProgress = q.inProgressAfter (w.proc.popped rest).inProgress :=
        NVMeDevice.inProgress_handle hhandle
      rw [seenBy_deliver hio]
      exact inPhase_quiet (phase_pop h.phase hio) (stamped_pop h.stamped hio) rfl hquiet hprogress
  | @abort q rest hio hhandle =>
      obtain ⟨hc, hend⟩ := NVMeDevice.tellsEnd_of_none hhandle
      have hprogress : w.proc.drive.inProgress = q.inProgressAfter w.proc.drive.inProgress := by
        rw [inProgressAfter_other hc, hend]
        rfl
      rw [seenBy_deliver hio]
      exact inPhase_quiet (phase_pop h.phase hio) (stamped_pop h.stamped hio) rfl (.refl _) hprogress

theorem clean_finished {qs : List Pending} (h : w.mi.Clean w.running qs) : w.mi.Clean false qs :=
  fun q hq => ⟨(h q hq).1, fun hend => ⟨((h q hq).2 hend).1, rfl⟩⟩

theorem inPhase_finish (h : w.InPhase) : InPhase { w with running := false } := by
  refine ⟨?_, h.stamped⟩
  have hphase := h.phase
  change Phase w.mi w.seen false w.proc.drive.inProgress
  generalize w.proc.drive.inProgress = inProgress at hphase
  cases hphase with
  | idle worker io ended => exact .idle worker io ended
  | queued worker io ended => exact .queued worker io ended
  | accepted worker io answer first clean unseen since =>
      exact .accepted worker io answer first (clean_finished clean) unseen since
  | known worker clean => exact .known worker (clean_finished clean)

theorem inPhase_of_step (h : w.InPhase) (hok : ¬ w.Overlaps e) (hstep : w.Step cfg e w') : w'.InPhase := by
  cases hstep with
  | process truthful step => exact inPhase_turn h hok truthful (Process.turn_of_step step).2
  | finish => exact inPhase_finish h

/-! ## Exclusion -/

theorem refused_of_inPhase (h : w.InPhase) (hok : ¬ w.Overlaps (.process (.erase passes type)))
    (hout : w.Outstanding) : w.proc.drive.erase cfg passes type = .error .NotAllowed := by
  rcases inProgress_or_idle h hok with hknown | ⟨hworker, _, hnone⟩
  · exact NVMeDevice.erase_eq_error_iff.mpr hknown
  · exact absurd hout (not_outstanding hworker hnone)

theorem single_of_turn {e : NvmeManager.Event} (h : w.InPhase) (hok : ¬ w.Overlaps (.process e))
    (hturn : w.proc.Turn cfg e p') (hout : w.Outstanding) :
    ∃ cs, w.proc.Adds e p' cs ∧ ∀ c ∈ cs, c.isSanitize = false := by
  refine ⟨w.proc.asks e, Process.adds_of_turn hturn, fun c hc => ?_⟩
  by_contra hsanitize
  obtain ⟨passes, type, rfl, -, hprogress, -⟩ := Process.erase_of_asks hc ((Bool.not_eq_false _).mp hsanitize)
  have hrefused : w.proc.drive.erase cfg passes type = .error .NotAllowed := refused_of_inPhase h hok hout
  rw [NVMeDevice.erase_eq_error_iff, hprogress] at hrefused
  cases hrefused

theorem fewer_of_turn {e : NvmeManager.Event} (h : w.InPhase) (hok : ¬ w.Overlaps (.process e))
    (htruthful : w.Truthful e) (hturn : w.proc.Turn cfg e p') (hout : w.Outstanding) :
    p'.drive.intf.sanitizes ≤ w.mi.sanitizes := by
  have hquiet : ∀ mi', Quiet w.running w.mi mi' → mi'.sanitizes ≤ w.mi.sanitizes :=
    fun mi' h => Nat.le_of_eq (sanitizes_quiet h)
  cases hturn with
  | initializeDrive => exact hquiet _ (.submit rfl)
  | inventory =>
      rw [NVMeDevice.intf_inventory]
      exact Nat.le_refl _
  | writeFault | refused | expire => exact Nat.le_refl _
  | erased herase =>
      rw [refused_of_inPhase h hok hout] at herase
      cases herase
  | @tick t ht => exact hquiet _ (NVMeDevice.quiet_tick { w.proc.drive with scanTimer := t })
  | execute hmi =>
      obtain ⟨_, c, rest, _, hworker, _⟩ := NVMeMi.execute_eq_some hmi
      by_cases hc : c.isSanitize = true
      · exact Nat.le_of_eq (sanitizes_execute hmi hworker hc)
      · rw [Bool.not_eq_true] at hc
        exact hquiet _ (quiet_execute htruthful hmi hworker hc)
  | @deliver q rest d hio hhandle =>
      have hpopped : Quiet w.running (w.proc.popped rest).intf d.intf := NVMeDevice.quiet_handle hhandle
      rw [sanitizes_quiet hpopped]
      exact sanitizes_pop hio
  | abort hio => exact sanitizes_pop hio

/-- The callback of a log that says how a sanitize ended is run only when none is running. -/
theorem inProgress_kept {q : Pending} {rest : List Pending} (h : w.InPhase) (hio : w.mi.io = q :: rest)
    (hrunning : w.running = true) (hprogress : w.proc.drive.inProgress = true) :
    q.inProgressAfter w.proc.drive.inProgress = true := by
  have hphase := h.phase
  rw [hprogress] at hphase ⊢
  cases hphase with
  | known worker clean =>
      rw [hio] at clean
      obtain ⟨hc, hends⟩ := clean q List.mem_cons_self
      rw [inProgressAfter_other hc]
      split
      · next hend =>
          rw [(hends hend).2] at hrunning
          cases hrunning
      · rfl

theorem kept_of_turn {e : NvmeManager.Event} (h : w.InPhase) (hturn : w.proc.Turn cfg e p')
    (hrunning : w.running = true) (hprogress : w.proc.drive.inProgress = true) : p'.drive.inProgress = true := by
  cases hturn with
  | initializeDrive | writeFault | refused | expire | execute | abort => exact hprogress
  | inventory =>
      rw [NVMeDevice.inProgress_inventory]
      exact hprogress
  | erased herase =>
      rw [(NVMeDevice.erase_eq_ok herase).1] at hprogress
      cases hprogress
  | tick =>
      rw [NVMeDevice.inProgress_tick]
      exact hprogress
  | @deliver q rest d hio hhandle =>
      rw [NVMeDevice.inProgress_handle hhandle]
      exact inProgress_kept h hio hrunning hprogress

theorem exclusive_of_inPhase (h : w.InPhase) (hok : ¬ w.Overlaps e) (hstep : w.Step cfg e w') :
    Exclusive cfg w e w' := by
  refine ⟨?_, ?_, ?_, ?_⟩
  · rintro passes type rfl hout
    exact refused_of_inPhase h hok hout
  · rintro hout pe rfl
    cases hstep with
    | process truthful step => exact single_of_turn h hok (Process.turn_of_step step).2 hout
  · intro hout
    cases hstep with
    | process truthful step => exact fewer_of_turn h hok truthful (Process.turn_of_step step).2 hout
    | finish => exact Nat.le_refl _
  · intro hrunning hprogress
    cases hstep with
    | process truthful step => exact kept_of_turn h (Process.turn_of_step step).2 hrunning hprogress
    | finish => exact hprogress

end

/-! ## Runs -/

section
variable {cfg : Config} {w w' : Watch} {e : Event} {props : NvmeInterfaces} {u : Uninitialised} {eid : UInt8}
  {bus : UInt32} {path : String} {timeout : Option Nat} {es : List Event}

theorem inPhase_start : (start cfg props u eid bus path timeout).InPhase :=
  ⟨.idle rfl (fun _ hq => absurd hq List.not_mem_nil) (fun _ hm => absurd hm List.not_mem_nil),
    Nat.le_refl _, fun _ hq => absurd hq List.not_mem_nil⟩

theorem inPhase_of_run
    (hrun : Run (guarded (fun w e => ¬ w.Overlaps e) (Step cfg)) (start cfg props u eid bus path timeout) es w) :
    w.InPhase := by
  have hstart : (start cfg props u eid bus path timeout).InPhase := inPhase_start
  refine hrun.guarded_invariant InPhase hstart ?_
  intro s e s' h hok hstep
  exact inPhase_of_step h hok hstep

/-- **One sanitize at a time.** In a run in which no client asks for a sanitize while the answer to the one before is
still to come, every event keeps to one sanitize at a time. -/
theorem exclusive_of_run
    (hrun : Run (guarded (fun w e => ¬ w.Overlaps e) (Step cfg)) (start cfg props u eid bus path timeout) es w)
    (hok : ¬ w.Overlaps e) (hstep : w.Step cfg e w') : Exclusive cfg w e w' :=
  exclusive_of_inPhase (inPhase_of_run hrun) hok hstep

/-- The theorem at a drive that is asked for a second sanitize while it is busy with the first. -/
theorem exclusive_of_run_busy : ∃ w w',
    Run (guarded (fun w e => ¬ w.Overlaps e) (Step .standard))
      (start .standard { (default : NvmeInterfaces) with sanitizeCapability := [.cryptoErase] } default 10 3 "" (some 5000))
      [.process (.erase 0 .cryptoErase), .process (.execute (.ok {}) 0), .process .deliver] w ∧
      w.Outstanding ∧ Exclusive .standard w (.process (.erase 0 .cryptoErase)) w' := by
  let erase : NvmeManager.Event := .erase 0 .cryptoErase
  let execute : NvmeManager.Event := .execute (.ok {}) 0
  let w₀ : Watch := start .standard { (default : NvmeInterfaces) with sanitizeCapability := [.cryptoErase] } default 10 3
    "" (some 5000)
  let w₁ : Watch := ⟨(w₀.proc.next .standard erase).getD w₀.proc, 0, false⟩
  let w₂ : Watch := ⟨(w₁.proc.next .standard execute).getD w₁.proc, 0, true⟩
  let w₃ : Watch := ⟨(w₂.proc.next .standard .deliver).getD w₂.proc, 0, true⟩
  have hstep₁ : w₀.Step .standard (.process erase) w₁ := .process trivial rfl
  have hstep₂ : w₁.Step .standard (.process execute) w₂ := .process nofun rfl
  have hstep₃ : w₂.Step .standard (.process .deliver) w₃ := .process trivial rfl
  have hstep₄ : w₃.Step .standard (.process erase) w₃ := .process trivial rfl
  have hrun : Run (guarded (fun w e => ¬ w.Overlaps e) (Step .standard)) w₀
      [.process erase, .process execute, .process .deliver] w₃ :=
    ((Run.nil.snoc ⟨by decide, hstep₁⟩).snoc ⟨id, hstep₂⟩).snoc ⟨id, hstep₃⟩
  have hout : w₃.Outstanding := .inr ⟨_, List.mem_of_getLast? rfl, rfl⟩
  exact ⟨w₃, w₃, hrun, hout, exclusive_of_run hrun (by decide) hstep₄⟩

theorem not_refused {passes : UInt16} {type : EraseMethod} (h : w.proc.drive.inProgress = false) :
    w.proc.drive.erase cfg passes type ≠ .error .NotAllowed := by
  intro hrefused
  rw [NVMeDevice.erase_eq_error_iff.mp hrefused] at h
  cases h

/-- The first client that asks too early is not refused, although a sanitize is outstanding. -/
theorem not_refused_of_overlaps {passes : UInt16} {type : EraseMethod}
    (hrun : Run (guarded (fun w e => ¬ w.Overlaps e) (Step cfg)) (start cfg props u eid bus path timeout) es w)
    (hoverlaps : w.Overlaps (.process (.erase passes type))) :
    w.Outstanding ∧ w.proc.drive.erase cfg passes type ≠ .error .NotAllowed := by
  have hphase := (inPhase_of_run hrun).phase
  have hfound : w.proc.drive.inProgress = false ∧ w.Outstanding := by
    generalize w.proc.drive.inProgress = inProgress at hphase
    have hworker : w.mi.worker.countP Command.isSanitize = 0 → ∃ q ∈ w.mi.io, q.Accepted := by
      intro hnone
      refine hoverlaps.resolve_left ?_
      rintro ⟨c, hc, hsanitize⟩
      exact List.countP_eq_zero.mp hnone c hc hsanitize
    cases hphase with
    | idle worker io =>
        obtain ⟨q, hq, haccepted⟩ := hworker worker
        exact absurd haccepted (io q hq)
    | queued worker => exact ⟨rfl, .inl (List.countP_pos_iff.mp (by omega))⟩
    | accepted worker io answer first clean unseen since =>
        obtain ⟨m, hm, haccepted⟩ := since
        exact ⟨rfl, .inr ⟨m, List.drop_subset_drop_left _ unseen hm, haccepted⟩⟩
    | known worker clean =>
        obtain ⟨q, hq, haccepted⟩ := hworker worker
        exact absurd haccepted (not_accepted (clean q hq).1)
  exact ⟨hfound.2, not_refused hfound.1⟩

end

/-! ## Two clients -/

/-- What an event leads to while no sanitize is running. -/
def nextIdle (cfg : Config) (w : Watch) (e : NvmeManager.Event) : Option Watch :=
  if w.running then none else (w.proc.next cfg e).map fun p' => ⟨p', w.seenBy e, w.running || w.startedBy p'⟩

section
variable {cfg : Config} {w w' : Watch} {e : NvmeManager.Event} {es : List NvmeManager.Event}

theorem step_of_nextIdle (h : w.nextIdle cfg e = some w') : w.Step cfg (.process e) w' := by
  unfold nextIdle at h
  split at h
  · cases h
  · next hrunning =>
      obtain ⟨p', hp', rfl⟩ := Option.map_eq_some_iff.mp h
      refine .process ?_ hp'
      cases e with
      | execute => exact fun h => absurd h hrunning
      | _ => trivial

theorem run_of_nextIdle (h : es.foldlM (nextIdle cfg) w = some w') : Run (Step cfg) w (es.map .process) w' := by
  have hrun := Run.of_foldlM h
  clear h
  induction hrun with
  | nil => exact .nil
  | snoc _ h ih =>
      rw [List.map_append]
      exact ih.snoc (step_of_nextIdle h)

end

def first : Watch := ⟨.first, 0, false⟩

def cryptoDrive : Libnvme := .ok { handles := [7], data := zeros 328 ++ [1] }

/-- A drive is scanned and identified, and a client asks for a sanitize; a second client that asks before the worker has
executed it is not refused. -/
theorem second_erase_accepted : ∃ w w',
    Run (Step .standard) first
      [.process .initializeDrive, .process (.execute cryptoDrive 0), .process .deliver,
        .process (.execute cryptoDrive 0), .process .deliver, .process (.erase 0 .cryptoErase)] w ∧
      w.Step .standard (.process (.erase 0 .cryptoErase)) w' ∧
      ¬ Exclusive .standard w (.process (.erase 0 .cryptoErase)) w' := by
  let es : List NvmeManager.Event :=
    [.initializeDrive, .execute cryptoDrive 0, .deliver, .execute cryptoDrive 0, .deliver, .erase 0 .cryptoErase]
  have hfacts : (es.foldlM (nextIdle .standard) first).any (fun w => decide w.Outstanding &&
      !w.proc.drive.inProgress && (w.nextIdle .standard (.erase 0 .cryptoErase)).isSome) = true := by
    decide +kernel
  generalize hw : es.foldlM (nextIdle .standard) first = w? at hfacts
  cases w? with
  | none => cases hfacts
  | some w =>
      rw [Option.any_some, Bool.and_eq_true, Bool.and_eq_true, decide_eq_true_eq, Bool.not_eq_true'] at hfacts
      obtain ⟨⟨hout, hprogress⟩, hnext⟩ := hfacts
      obtain ⟨w', hw'⟩ := Option.isSome_iff_exists.mp hnext
      refine ⟨w, w', run_of_nextIdle hw, step_of_nextIdle hw', fun h => ?_⟩
      exact not_refused hprogress (h.refused 0 .cryptoErase rfl hout)

end NvmeManager.Watch
