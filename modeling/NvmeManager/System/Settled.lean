import Mathlib
import NvmeManager.System.Ledger
import NvmeManager.System.Manager
import NvmeManager.System.Published
import NvmeManager.System.Retry

/-!
# The work between two waits

What the timers and the clients do not ask for comes to an end: a request leads to a few others, and these to none.

* `Command.queued`, `Command.waiting` : what a request can still cost, in the queue of the worker and in that of the loop;
  `NVMeDevice.credit` : what the attempts of an identify and the handlers that are ready can; `work_handle`, `work_execute`,
  `work_tick` : a callback, a request or a handler costs more than what it leads to;
* `Manager.work` : the same over all drives; `work_of_step` : every event of `IsWork` uses some of it;
* `Manager.Idle` : the main loop has nothing to do; `idle_of_stuck`, `Idle.stuck` : so it is where none of its events can
  happen, and only there; `Idle.waits` : a drive that is still polled then waits for its timer or for the worker thread;
* `settled_of_run` : from every reachable state there is only so much work, and where the loop is idle every drive that is
  polled waits.
-/

namespace NvmeManager

/-! ## What requests cost -/

namespace Command

/-- The cost of a callback that waits for the loop, with all that it can lead to. -/
def waiting : Command → Nat
  | scan => 11
  | identify _ => 9
  | portInformation | health | smart _ | sanitizeLog _ | sanitize .. => 1

/-- The cost of a request that waits for the worker; a SMART read may be answered twice. -/
def queued : Command → Nat
  | scan => 12
  | identify _ => 10
  | smart _ => 3
  | portInformation | health | sanitizeLog _ | sanitize .. => 2

theorem waiting_pos (c : Command) : 0 < c.waiting := by
  cases c <;> exact Nat.succ_pos _

theorem waiting_le (c : Command) : c.waiting ≤ 11 := by
  cases c <;> simp [waiting]

theorem queued_le (c : Command) : c.queued ≤ 12 := by
  cases c <;> simp [queued]

theorem waiting_lt_queued (c : Command) : c.waiting < c.queued := by
  cases c <;> simp [waiting, queued]

/-- The callbacks of a request cost less than the request. -/
theorem posted_lt_queued (cfg : Config) (c : Command) (lib : Libnvme) (errno : Int) (ep : Endpoint) :
    ((c.request cfg).executed lib errno ep).posted.length * c.waiting < c.queued := by
  rcases length_posted cfg c lib errno ep with hone | ⟨htwo, hsmart⟩
  · rw [hone, Nat.one_mul]
    exact c.waiting_lt_queued
  · rw [htwo]
    cases c with
    | smart =>
        change 2 * 1 < 3
        decide
    | scan | identify | portInformation | health | sanitizeLog | sanitize => exact hsmart.elim

end Command

namespace NVMeMi
variable {cfg : Config} {mi mi' : NVMeMi}

def work (mi : NVMeMi) : Nat :=
  (mi.worker.map Command.queued).sum + (mi.io.map fun q => q.command.waiting).sum

theorem work_submit (c : Command) : (mi.submit cfg c).work ≤ mi.work + c.queued := by
  unfold submit work
  have hlt := c.waiting_lt_queued
  cases mi.nvmeEP with
  | none =>
      simp only [List.map_append, List.sum_append, List.map_cons, List.map_nil, List.sum_cons, List.sum_nil]
      omega
  | some ep =>
      simp only [List.map_append, List.sum_append, List.map_cons, List.map_nil, List.sum_cons, List.sum_nil]
      omega

theorem work_submits (cs : List Command) : (mi.submits cfg cs).work ≤ mi.work + (cs.map Command.queued).sum := by
  induction cs generalizing mi with
  | nil => exact Nat.le_refl _
  | cons c cs ih =>
      have hone : (mi.submit cfg c).work ≤ mi.work + c.queued := work_submit c
      have hrest : ((mi.submit cfg c).submits cfg cs).work ≤ _ := ih
      change ((mi.submit cfg c).submits cfg cs).work ≤ _
      rw [List.map_cons, List.sum_cons]
      omega

theorem work_execute {lib : Libnvme} {errno : Int} (h : mi.execute cfg lib errno = some mi') : mi'.work < mi.work := by
  obtain ⟨ep, c, rest, -, hworker, rfl⟩ := execute_eq_some h
  have hposted := Command.posted_lt_queued cfg c lib errno ep
  unfold work
  rw [hworker]
  simp only [List.map_append, List.sum_append, List.map_cons, List.sum_cons, List.map_map, Function.comp_def,
    List.map_const', List.sum_replicate_nat]
  omega

end NVMeMi

namespace NVMeDevice
variable {cfg : Config} {d d' : NVMeDevice} {c : Command} {r : Reply}

/-- The cost of the attempts of an identify that are left, and of the handlers of the timer that are ready. -/
def credit (d : NVMeDevice) : Nat := 2 * (3 - d.retry.toNat) + 13 * d.scanTimer.fired.length

def work (d : NVMeDevice) : Nat := d.intf.work + d.credit

/-- The counter of the attempts goes up by one with each that is made, and a new one costs less. -/
theorem credit_identified (hretry : d.retry < maxIdentifyCmdRetry) :
    2 * (3 - (d.retry + 1).toNat) + 2 = 2 * (3 - d.retry.toNat) := by
  have hlt : d.retry.toNat < 3 := UInt8.lt_iff_toNat_lt.mp hretry
  have hnext := toNat_retry_succ hretry
  omega

/-- A callback costs more than what it leads to. -/
theorem work_handle (h : d.handle cfg c r = some d') : d'.work < d.work + c.waiting := by
  obtain ⟨htimer, hintf⟩ := handle_follow h
  have hfired : d'.scanTimer.fired = d.scanTimer.fired := by
    rw [htimer]
    cases d.follow c r with
    | request | wait | nothing => rfl
  have hwork : d'.intf.work ≤ d.intf.work + ((d.follow c r).requests.map Command.queued).sum := by
    rw [hintf, ← Process.submits_requests]
    exact NVMeMi.work_submits _
  unfold work credit
  rw [hfired]
  cases c with
  | identify ctrl =>
      obtain rfl := Option.some.inj h
      cases hec : r.ec.isError with
      | true =>
          obtain ⟨hretry', hintf'⟩ := identified_failed d cfg hec
          rw [hretry', hintf']
          by_cases hretry : d.retry < maxIdentifyCmdRetry
          · rw [if_pos hretry, if_pos hretry]
            have hcredit := credit_identified hretry
            have hsubmit : (d.intf.submit cfg (.identify d.ctrl)).work ≤ d.intf.work + 10 := NVMeMi.work_submit _
            change _ < _ + 9
            omega
          · rw [if_neg hretry, if_neg hretry]
            have hsubmit : (d.intf.submit cfg .portInformation).work ≤ d.intf.work + 2 := NVMeMi.work_submit _
            change _ + (2 * (3 - 0) + _) < _ + 9
            omega
      | false =>
          obtain ⟨hretry', hintf'⟩ := identified_succeeded d cfg hec
          have hsubmit : (d.intf.submit cfg .portInformation).work ≤ d.intf.work + 2 := NVMeMi.work_submit _
          rw [hretry', hintf']
          change _ < _ + 9
          omega
  | scan =>
      rw [retry_handle h rfl]
      have hfollow : ((d.follow .scan r).requests.map Command.queued).sum ≤ 10 := by
        unfold follow
        dsimp only
        split
        · exact Nat.le_refl _
        · exact Nat.zero_le _
      change _ < _ + 11
      omega
  | portInformation | health | smart | sanitize =>
      rw [retry_handle h rfl]
      change d'.intf.work ≤ d.intf.work + 0 at hwork
      change _ < _ + 1
      omega
  | sanitizeLog ctrl =>
      rw [retry_handle h rfl]
      have hfollow : (d.follow (.sanitizeLog ctrl) r).requests = [] := by
        unfold follow
        dsimp only
        split
        · rfl
        · rfl
      rw [hfollow] at hwork
      change d'.intf.work ≤ d.intf.work + 0 at hwork
      change _ < _ + 1
      omega

theorem work_tick {t : SteadyTimer Unit} (h : d.scanTimer.take? = some ((), t)) :
    (({ d with scanTimer := t } : NVMeDevice).tick cfg).work < d.work := by
  obtain ⟨rest, hfired, rfl⟩ := SteadyTimer.take?_eq_some h
  have hintf : (({ d with scanTimer := { d.scanTimer with fired := rest } } : NVMeDevice).tick cfg).intf =
      d.intf.submits cfg (Process.asks ⟨d, false⟩ .tick) := Process.intf_tick (p := ⟨d, false⟩)
  have hasks : ((Process.asks ⟨d, false⟩ .tick).map Command.queued).sum ≤ 12 := by
    unfold Process.asks
    dsimp only
    split
    · exact Nat.le_refl 12
    · split
      · exact (by decide : 2 + 0 ≤ 12)
      · exact (by decide : 2 + (3 + 0) ≤ 12)
  have hrest : (({ d with scanTimer := { d.scanTimer with fired := rest } } : NVMeDevice).tick cfg).scanTimer.fired =
      rest := by
    unfold tick
    split
    · rfl
    · split
      · rfl
      · rfl
  have hwork : (d.intf.submits cfg (Process.asks ⟨d, false⟩ .tick)).work ≤ _ := NVMeMi.work_submits _
  unfold work credit
  rw [hintf, hrest, retry_tick, hfired, List.length_cons]
  dsimp only
  omega

end NVMeDevice

/-! ## All drives -/

theorem sum_map_set {α : Type} (f : α → Nat) {l : List α} {i : Nat} {a b : α} (h : l[i]? = some a) :
    ((l.set i b).map f).sum + f a = (l.map f).sum + f b := by
  induction l generalizing i with
  | nil => cases h
  | cons x l ih =>
      cases i with
      | zero =>
          obtain rfl := Option.some.inj h
          simp only [List.set_cons_zero, List.map_cons, List.sum_cons]
          omega
      | succ i =>
          have hrest := ih h
          simp only [List.set_cons_succ, List.map_cons, List.sum_cons]
          omega

theorem sum_map_tagged {ι α : Type} (f : α → Nat) (i : ι) (l : List α) :
    ((tagged i l).map fun a => f a.2).sum = (l.map f).sum := by
  unfold tagged
  rw [List.map_map]
  rfl

namespace Manager
variable {cfg : Config} {m m' : Manager} {e : Event}

def work (m : Manager) : Nat :=
  (m.workerIO.map fun a => a.2.queued).sum + (m.io.map fun a => a.2.command.waiting).sum +
    (m.members.map fun a => a.drive.credit).sum

/-- The events that no client and no timer is behind: a handler that is ready, a request or a callback. -/
def Event.IsWork : Event → Prop
  | tick _ | execute .. | deliver => True
  | endpoints .. | inventory .. | writeFault .. | erase .. | expire _ => False

/-- A function of a drive has run, and its requests are under way. -/
theorem work_settle {i : Nat} {a : Member} (ha : m.members[i]? = some a) (d : NVMeDevice) :
    (m.settle i d).work + a.drive.credit = m.work + d.work := by
  have hmembers := sum_map_set (fun a : Member => a.drive.credit) (b := d.settled) ha
  have hworker := sum_map_tagged Command.queued i d.intf.worker
  have hio := sum_map_tagged (fun q : Pending => q.command.waiting) i d.intf.io
  have hcredit : d.settled.drive.credit = d.credit := rfl
  unfold work settle NVMeDevice.work NVMeMi.work
  simp only [List.map_append, List.sum_append]
  omega

theorem Member.work_drive (a : Member) : a.drive.work = a.drive.credit := by
  unfold NVMeDevice.work NVMeMi.work
  rw [a.worker, a.io]
  exact Nat.zero_add _

/-- Every event of the program's own work uses some of it. -/
theorem work_of_step (he : e.IsWork) (h : m.Step cfg e m') : m'.work < m.work := by
  cases (turn_of_step h).2 with
  | added | initialized | endpointsThrown | inventoryThrown => exact he.elim
  | @drive e i e' a p hdrive ha hstep =>
      have hsettle := work_settle ha p.drive
      have hmember := Member.work_drive a
      cases e with
      | tick j =>
          obtain ⟨rfl, rfl⟩ := Prod.mk.inj (Option.some.inj hdrive)
          cases (Process.turn_of_step hstep).2 with
          | @tick t ht =>
              have htick : (({ a.drive with scanTimer := t } : NVMeDevice).tick cfg).work < a.drive.work :=
                NVMeDevice.work_tick ht
              refine Nat.lt_of_add_lt_add_right (n := a.drive.credit) ?_
              rw [hsettle, ← hmember]
              exact Nat.add_lt_add_left htick _
      | endpoints | inventory | writeFault | erase | expire => exact he.elim
      | execute | deliver => cases hdrive
  | @execute lib errno i c rest a mi hworker ha hmi =>
      have hsettle := work_settle (m := { m with workerIO := rest }) ha { a.drive with intf := mi }
      have hexecute := NVMeMi.work_execute hmi
      have hcost : ({ a.drive.intf with worker := [c] } : NVMeMi).work = c.queued := by
        unfold NVMeMi.work
        rw [a.io]
        rfl
      have hhead : m.work = c.queued + ({ m with workerIO := rest } : Manager).work := by
        unfold work
        rw [hworker]
        simp only [List.map_cons, List.sum_cons]
        omega
      have hdrive : ({ a.drive with intf := mi } : NVMeDevice).work = mi.work + a.drive.credit := rfl
      omega
  | @deliver i q rest a d hio ha hhandle =>
      have hsettle := work_settle (m := { m with io := rest }) ha d
      have hcallback := NVMeDevice.work_handle hhandle
      have hmember := Member.work_drive a
      have hhead : m.work = q.command.waiting + ({ m with io := rest } : Manager).work := by
        unfold work
        rw [hio]
        simp only [List.map_cons, List.sum_cons]
        omega
      omega
  | @divided i q rest a hio =>
      have hpos := q.command.waiting_pos
      unfold work
      rw [hio]
      simp only [List.map_cons, List.sum_cons]
      omega

/-! ## Where the loop has nothing to do -/

/-- The events of the main loop that no client and no timer is behind; what the worker thread does is none of them. -/
def Event.IsLoop : Event → Prop
  | tick _ | deliver => True
  | endpoints .. | inventory .. | writeFault .. | erase .. | execute .. | expire _ => False

/-- The main loop has nothing to do: no callback waits in it, and no handler of a timer is ready. -/
structure Idle (m : Manager) : Prop where
  io : m.io = []
  fired : ∀ a ∈ m.members, a.drive.scanTimer.fired = []

theorem idle_of_stuck {es : List Event} (hrun : Run (Step cfg) init es m) (hrunning : m.aborted = false)
    (hstuck : ∀ e m', e.IsLoop → ¬ m.Step cfg e m') : m.Idle := by
  refine ⟨?_, fun a ha => ?_⟩
  · cases hio : m.io with
    | nil => rfl
    | cons head rest =>
        obtain ⟨i, q⟩ := head
        have hi : i < m.members.length := (formed_of_run hrun).io (i, q) (by rw [hio]; exact List.mem_cons_self)
        have ha : m.members[i]? = some m.members[i] := List.getElem?_eq_getElem hi
        obtain ⟨m', hstep⟩ : ∃ m', m.Step cfg .deliver m' := by
          unfold Step next
          rw [hrunning, if_neg Bool.false_ne_true]
          dsimp only
          rw [hio]
          dsimp only
          rw [ha]
          exact ⟨_, rfl⟩
        exact absurd hstep (hstuck _ _ trivial)
  · cases hfired : a.drive.scanTimer.fired with
    | nil => rfl
    | cons head rest =>
        obtain ⟨i, hi⟩ := List.mem_iff_getElem?.mp ha
        obtain ⟨m', hstep⟩ : ∃ m', m.Step cfg (.tick i) m' := by
          unfold Step next
          rw [hrunning, if_neg Bool.false_ne_true]
          dsimp only
          unfold runDrive Process.next SteadyTimer.take?
          rw [hi, Option.bind_some, if_neg Bool.false_ne_true]
          dsimp only
          rw [hfired]
          exact ⟨_, rfl⟩
        exact absurd hstep (hstuck _ _ trivial)

theorem Idle.stuck (hidle : m.Idle) (he : e.IsLoop) : ¬ m.Step cfg e m' := by
  intro h
  cases (turn_of_step h).2 with
  | added | initialized | endpointsThrown | inventoryThrown | execute => exact he.elim
  | @drive e i e' a p hdrive ha hstep =>
      cases e with
      | tick j =>
          obtain ⟨rfl, rfl⟩ := Prod.mk.inj (Option.some.inj hdrive)
          cases (Process.turn_of_step hstep).2 with
          | @tick t ht =>
              obtain ⟨rest, hfired, -⟩ := SteadyTimer.take?_eq_some ht
              have hnone : a.drive.scanTimer.fired = [] := hidle.fired a (List.mem_of_getElem? ha)
              rw [hnone] at hfired
              cases hfired
      | endpoints | inventory | writeFault | erase | expire => exact he.elim
      | execute | deliver => cases hdrive
  | deliver hio | divided hio =>
      rw [hidle.io] at hio
      cases hio

/-- A drive that is still polled waits for its timer, or for the worker thread. -/
theorem Idle.waits (hidle : m.Idle) {i : Nat} {d : NVMeDevice} (hd : m.view i = some d) (hpolling : d.Polling) :
    d.scanTimer.wait.isSome = true ∨ ∃ c, (i, c) ∈ m.workerIO := by
  obtain ⟨a, ha, rfl⟩ := Option.map_eq_some_iff.mp hd
  rcases hpolling with hlive | ⟨c, hc, -⟩
  · rcases hlive with hwait | hfired
    · exact .inl hwait
    · exact absurd (hidle.fired a (List.mem_of_getElem? ha)) hfired
  · have hqueue : (a.drive.behind (ofTag i m.workerIO) (ofTag i m.io)).intf.outstanding = ofTag i m.workerIO := by
      unfold NVMeMi.outstanding NVMeDevice.behind NVMeMi.behind
      dsimp only
      rw [hidle.io, a.worker, a.io, List.append_nil]
      exact List.append_nil _
    rw [hqueue] at hc
    exact .inr ⟨c, mem_ofTag.mp hc⟩

/-! ## Main result -/

theorem work_le (m : Manager) : m.work ≤ 12 * m.workerIO.length + 11 * m.io.length +
    (m.members.map fun a => 6 + 13 * a.drive.scanTimer.fired.length).sum := by
  have hqueued : (m.workerIO.map fun a => a.2.queued).sum ≤ 12 * m.workerIO.length := by
    refine (List.sum_le_card_nsmul _ 12 fun n hn => ?_).trans_eq (by simp [Nat.mul_comm])
    obtain ⟨a, -, rfl⟩ := List.mem_map.mp hn
    exact a.2.queued_le
  have hwaiting : (m.io.map fun a => a.2.command.waiting).sum ≤ 11 * m.io.length := by
    refine (List.sum_le_card_nsmul _ 11 fun n hn => ?_).trans_eq (by simp [Nat.mul_comm])
    obtain ⟨a, -, rfl⟩ := List.mem_map.mp hn
    exact a.2.command.waiting_le
  have hcredit : (m.members.map fun a => a.drive.credit).sum ≤
      (m.members.map fun a => 6 + 13 * a.drive.scanTimer.fired.length).sum := by
    refine List.sum_le_sum fun a _ => ?_
    unfold NVMeDevice.credit
    omega
  unfold work
  omega

/-- **Rest.** From every reachable state the program has only so much work to do before it needs a client or a timer: at
most twelve events for each request, eleven for each callback, and six for each drive with thirteen for each handler that
is ready. Where the main loop has nothing to do, the process has been aborted, or every drive that is still polled waits
for its timer or for the worker thread, of which nothing is assumed: it may sleep on with the request in its queue. -/
theorem settled_of_run {es work : List Event} (hrun : Run (Step cfg) init es m)
    (hwork : Run (guarded (fun _ e => e.IsWork) (Step cfg)) m work m') :
    work.length ≤ 12 * m.workerIO.length + 11 * m.io.length +
        (m.members.map fun a => 6 + 13 * a.drive.scanTimer.fired.length).sum ∧
      ((∀ e m'', e.IsLoop → ¬ m'.Step cfg e m'') → m'.aborted = true ∨ m'.Idle ∧
        ∀ i d, m'.view i = some d → d.Polling → d.scanTimer.wait.isSome = true ∨ ∃ c, (i, c) ∈ m'.workerIO) := by
  have hpotential := hwork.length_add_le Manager.work fun _ _ _ h => work_of_step h.1 h.2
  refine ⟨?_, fun hstuck => ?_⟩
  · have hle := work_le m
    omega
  · cases hrunning : m'.aborted with
    | true => exact .inl rfl
    | false =>
        have hidle := idle_of_stuck (hrun.append hwork.of_guarded) hrunning hstuck
        exact .inr ⟨hidle, fun i d hd hpolling => hidle.waits hd hpolling⟩

instance (e : Event) : Decidable e.IsWork :=
  match e with
  | .tick _ | .execute .. | .deliver => inferInstanceAs (Decidable True)
  | .endpoints .. | .inventory .. | .writeFault .. | .erase .. | .expire _ => inferInstanceAs (Decidable False)

/-- The theorem at a drive that has been initialized, and whose scan finds a controller: it waits for the worker. -/
theorem settled_of_run_first : ∃ m m' : Manager,
    Run (Step .standard) init [.endpoints endpointSnapshot fun _ => firstConstruction, .inventory .empty [0]] m ∧
    Run (guarded (fun _ e => e.IsWork) (Step .standard)) m [.execute (.ok { handles := [7] }) 0, .deliver] m' ∧
    m'.workerIO.length = 1 ∧ 2 ≤ 12 * m.workerIO.length + 11 * m.io.length +
      (m.members.map fun a => 6 + 13 * a.drive.scanTimer.fired.length).sum ∧ m'.Idle ∧
      ∀ i d, m'.view i = some d → d.Polling → d.scanTimer.wait.isSome = true ∨ ∃ c, (i, c) ∈ m'.workerIO := by
  have hfacts : ([Event.endpoints endpointSnapshot fun _ => firstConstruction, .inventory .empty [0]].foldlM
      (fun (m : Manager) e => m.next .standard e) init).any (fun m =>
        ([Event.execute (.ok { handles := [7] }) 0, .deliver].foldlM
          (fun (m : Manager) (e : Event) => if e.IsWork then m.next .standard e else none) m).any fun (m' : Manager) =>
            decide (m'.workerIO.length = 1) && m'.io.isEmpty && !m'.aborted &&
              m'.members.all fun a => a.drive.scanTimer.fired.isEmpty) = true := by
    decide +kernel
  obtain ⟨m, hm, hwork⟩ := (Option.any_eq_true _ _).mp hfacts
  obtain ⟨m', hm', hstate⟩ := (Option.any_eq_true _ _).mp hwork
  simp only [Bool.and_eq_true, decide_eq_true_eq, List.isEmpty_iff, Bool.not_eq_true', List.all_eq_true] at hstate
  obtain ⟨⟨⟨hworker, hio⟩, hrunning⟩, hfired⟩ := hstate
  have hrun : Run (Step .standard) init _ m := Run.of_foldlM hm
  have hrun' : Run (guarded (fun _ e => e.IsWork) (Step .standard)) m _ m' := Run.guarded_of_foldlM hm'
  obtain ⟨hbound, hrest⟩ := settled_of_run hrun hrun'
  have hidle : m'.Idle := ⟨hio, hfired⟩
  rcases hrest fun e m'' he => hidle.stuck he with haborted | ⟨-, hwaits⟩
  · rw [hrunning] at haborted
    cases haborted
  · exact ⟨m, m', hrun, hrun', hworker, hbound, hidle, hwaits⟩

end Manager
end NvmeManager
