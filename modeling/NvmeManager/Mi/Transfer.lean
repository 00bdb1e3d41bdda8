import NvmeManager.Lib.Run
import NvmeManager.Mi.Security
import Mathlib.Data.List.Forall2
import Mathlib.Logic.Function.Basic

/-!
# Raw transfers

The worker executes the requests of one endpoint, one after the other, while the clients go on using the memory that the
requests were made from.

* `TimedCall`, `Closure.timed` : the commands of a closure, each with the timeout of the endpoint when it is made;
  `Closure.timed_of_uses` : a closure that does not touch the timeout makes all of them with the one it finds;
* `Transferred` : the execution of a transfer, from the header and the payload; `transferred_adminXfer`;
* `EndpointWorker` : the memory, the queue and the endpoint; `EndpointWorker.next` : what an event does;
* `EndpointWorker.InOrder` : the calls are executed in their order, each as it was when it was made;
  `inOrder_of_run` : so it is after any events, and the timeout is the one that the endpoint was opened with.
-/

namespace NvmeManager
open Closure

/-! ## Timeouts -/

/-- A command, and the timeout of the endpoint when it was made. -/
structure TimedCall where
  call : NvmeCall
  timeout : Nat
  deriving DecidableEq, Repr

/-- `serve`, with a note of the commands. -/
def timedServe (lib : Libnvme) (o : Op) (s : Thread × List TimedCall) : o.Ans × Thread × List TimedCall :=
  ((serve lib o s.1).1, (serve lib o s.1).2,
    match o with
    | .nvme c => s.2 ++ [⟨c, s.1.ep.timeout⟩]
    | _ => s.2)

/-- The thread after a closure, and the commands that it has made. -/
def Closure.timed {α : Type} (p : Closure α) (lib : Libnvme) (t : Thread) : Thread × List TimedCall :=
  (p.run (timedServe lib) (t, [])).2

section
variable {α : Type} (lib : Libnvme)

theorem Closure.timed_fst (p : Closure α) (t : Thread) : (p.timed lib t).1 = (p.exec lib t).2 :=
  congrArg Prod.snd (Prog.run_project (serve lib) (timedServe lib) Prod.fst (fun _ _ => rfl) p (t, []))

/-- A closure that does not set the timeout makes every command with the timeout that it finds. -/
theorem Closure.timed_of_uses {p : Closure α} (hp : p.Uses fun o => o.setsTimeout = false) (t : Thread) :
    (p.timed lib t).1.ep.timeout = t.ep.timeout ∧ ∀ c ∈ (p.timed lib t).2, c.timeout = t.ep.timeout := by
  refine Prog.run_invariant (timedServe lib)
    (fun s => s.1.ep.timeout = t.ep.timeout ∧ ∀ c ∈ s.2, c.timeout = t.ep.timeout) ?_ hp ⟨rfl, nofun⟩
  rintro o ⟨t', calls⟩ ho ⟨htimeout, hcalls⟩
  cases o with
  | nvme c =>
      refine ⟨?_, fun m hm => ?_⟩
      · refine Eq.trans ?_ htimeout
        cases c with
        | scanEp force =>
            cases force with
            | true | false => rfl
        | _ => rfl
      · rcases List.mem_append.mp hm with hm | hm
        · exact hcalls m hm
        · obtain rfl := List.mem_singleton.mp hm
          exact htimeout
  | setTimeout => cases ho
  | forEachCtrl | errno | setErrno | getTimeout | ioPost => exact ⟨htimeout, hcalls⟩

end

theorem MiRequest.uses_task_timeout {r : MiRequest} (h : ¬ r.SetsTimeout) :
    r.task.Uses fun o => o.setsTimeout = false := by
  refine r.uses_task.mono fun o ho => ?_
  cases o with
  | setTimeout => exact absurd ho h
  | nvme | forEachCtrl | errno | setErrno | getTimeout | ioPost => rfl

/-- What the worker has done for a request. -/
structure Execution where
  lib : Libnvme
  errno : Int
  /-- The endpoint that it has found. -/
  before : Endpoint
  /-- The thread that it has left. -/
  after : Thread
  calls : List TimedCall

def Closure.execution (p : Closure Unit) (lib : Libnvme) (errno : Int) (ep : Endpoint) : Execution :=
  ⟨lib, errno, ep, (p.timed lib (.start errno ep)).1, (p.timed lib (.start errno ep)).2⟩

/-! ## One transfer -/

def sizeofAdminReqHdr : Nat := 68

namespace NVMeMi

def transferCall (ctrl : Ctrl) (header payload : List UInt8) : NvmeCall :=
  .adminXfer ctrl (header ++ payload) (reqDoff header) (reqDlen header)

/-- The transfer has been made with its header, its payload and its timeout, and the response has been handed on. -/
structure Transferred (ctrl : Ctrl) (header payload : List UInt8) (timeout_ms : Nat) (x : Execution) : Prop where
  made : x.calls = [⟨transferCall ctrl header payload, timeout_ms⟩]
  responded : ∀ a, x.lib 0 (transferCall ctrl header payload) = a → ¬ a.rc < 0 → a.out.size ≤ reqDlen header →
    x.after.posted = [⟨.noError, .response (resize a.out.hdr sizeofAdminRespHdr) (resize a.out.data a.out.size)⟩]
  restored : x.after.ep = x.before

section
variable {header : List UInt8} (hheader : header.length = sizeofAdminReqHdr) (payload : List UInt8)
include hheader

theorem reqField_append {offset : Nat} (hoffset : offset + 4 ≤ sizeofAdminReqHdr) :
    u32At (header ++ payload) offset = u32At header offset := by
  apply u32At_congr
  intro i hi
  unfold byteAt
  rw [List.getD_eq_getElem?_getD, List.getD_eq_getElem?_getD, List.getElem?_append_left (by omega)]

theorem transferCall_eq (ctrl : Ctrl) : transferCall ctrl header payload =
    .adminXfer ctrl (header ++ payload) (reqDoff (header ++ payload)) (reqDlen (header ++ payload)) := by
  unfold transferCall reqDoff reqDlen
  rw [reqField_append hheader payload (by decide), reqField_append hheader payload (by decide)]

end

theorem response_buffer (hdr data : List UInt8) {dlen size : Nat} (h : size ≤ dlen) :
    resize (overlay (resize hdr sizeofAdminRespHdr ++ data) (zeros (sizeofAdminRespHdr + dlen)))
        (sizeofAdminRespHdr + size) =
      resize hdr sizeofAdminRespHdr ++ resize data size := by
  rw [overlay_append_zeros (length_resize _ _), resize_append (length_resize _ _), resize_overlay_zeros _ h]

section
variable (ctrl : Ctrl) (req : List UInt8) (timeout_ms : Nat) (lib : Libnvme) (errno : Int) (ep : Endpoint)

theorem timed_adminXfer : ((adminXfer ctrl req timeout_ms).timed lib (.start errno ep)).2 =
    [⟨.adminXfer ctrl req (reqDoff req) (reqDlen req), timeout_ms⟩] := by
  unfold Closure.timed adminXfer
  simp only [Prog.run_bind]
  split
  · rfl
  · rfl

theorem ep_adminXfer : ((adminXfer ctrl req timeout_ms).exec lib (.start errno ep)).2.ep = ep := by
  unfold adminXfer
  simp only [exec_bind]
  split
  · rfl
  · rfl

theorem posted_adminXfer (a : Answer) (ha : lib 0 (.adminXfer ctrl req (reqDoff req) (reqDlen req)) = a)
    (hrc : ¬ a.rc < 0) (hsize : a.out.size ≤ reqDlen req) :
    ((adminXfer ctrl req timeout_ms).exec lib (.start errno ep)).2.posted =
      [⟨.noError, .response (resize a.out.hdr sizeofAdminRespHdr) (resize a.out.data a.out.size)⟩] := by
  unfold adminXfer
  simp only [exec_bind, exec_getTimeout, exec_setTimeout, exec_nvme, Thread.made_start, List.length_nil, ha,
    response_buffer _ _ hsize, List.take_left' (length_resize _ _), List.drop_left' (length_resize _ _)]
  split
  · next hneg => exact absurd hneg hrc
  · rfl

end

theorem transferred_adminXfer (ctrl : Ctrl) {header : List UInt8} (hheader : header.length = sizeofAdminReqHdr)
    (payload : List UInt8) (timeout_ms : Nat) (lib : Libnvme) (errno : Int) (ep : Endpoint) :
    Transferred ctrl header payload timeout_ms
      ((adminXfer ctrl (header ++ payload) timeout_ms).execution lib errno ep) := by
  have hcall := transferCall_eq hheader payload ctrl
  have hdlen : reqDlen (header ++ payload) = reqDlen header :=
    congrArg UInt32.toNat (reqField_append hheader payload (by decide))
  refine ⟨?_, fun a ha hrc hsize => ?_, ?_⟩
  · rw [hcall]
    exact timed_adminXfer ctrl (header ++ payload) timeout_ms lib errno ep
  · rw [hcall] at ha
    rw [← hdlen] at hsize
    refine Eq.trans ?_ (posted_adminXfer ctrl (header ++ payload) timeout_ms lib errno ep a ha hrc hsize)
    exact congrArg Thread.posted (Closure.timed_fst lib _ _)
  · refine Eq.trans ?_ (ep_adminXfer ctrl (header ++ payload) timeout_ms lib errno ep)
    exact congrArg Thread.ep (Closure.timed_fst lib _ _)

end NVMeMi

/-! ## The clients -/

/-- `std::span<uint8_t>` -/
structure Span where
  data : Nat
  size : Nat

/-- The memory of the clients, byte by byte. -/
abbrev Memory := Nat → UInt8

def Memory.read (memory : Memory) (s : Span) : List UInt8 := (List.range s.size).map fun i => memory (s.data + i)

@[simp] theorem Memory.length_read (memory : Memory) (s : Span) : (memory.read s).length = s.size := by
  rw [read, List.length_map, List.length_range]

/-- A call of the interface that gives the worker a closure. The header and the payload of a transfer are in memory. -/
inductive ClientCall
  | adminXfer (ctrl : Ctrl) (admin_req : Nat) (data : Span) (timeout_ms : Nat)
  | other (r : MiRequest) (hother : ¬ r.SetsTimeout) (hposted : r.submit true = .worker r.task)

namespace ClientCall

/-- The header of a transfer and its payload are copied. -/
def request (memory : Memory) : ClientCall → MiRequest
  | adminXfer ctrl admin_req data timeout_ms =>
    .adminXfer ctrl (memory.read ⟨admin_req, sizeofAdminReqHdr⟩) (memory.read data) timeout_ms
  | other r .. => r

theorem submit_request (c : ClientCall) (memory : Memory) :
    (c.request memory).submit true = .worker (c.request memory).task := by
  cases c with
  | adminXfer => rfl
  | other r _ hposted => exact hposted

end ClientCall

/-- The worker of one endpoint. -/
structure EndpointWorker where
  memory : Memory
  ep : Endpoint
  /-- The closures in the queue, oldest first. -/
  workerIO : List (Closure Unit)
  /-- The calls so far, each with the memory in which it was made, oldest first. -/
  calls : List (ClientCall × Memory)
  /-- The executions so far, oldest first. -/
  done : List Execution

/-- What can happen next. -/
inductive ClientEvent
  /-- A client writes to its memory. -/
  | write (address : Nat) (byte : UInt8)
  | call (c : ClientCall)
  /-- The worker executes the oldest closure. -/
  | execute (lib : Libnvme) (errno : Int)

namespace EndpointWorker

def opened (memory : Memory) (ep : Endpoint) : EndpointWorker := ⟨memory, ep, [], [], []⟩

def next (w : EndpointWorker) : ClientEvent → Option EndpointWorker
  | .write address byte => some { w with memory := Function.update w.memory address byte }
  | .call c =>
    some { w with workerIO := w.workerIO ++ [(c.request w.memory).task], calls := w.calls ++ [(c, w.memory)] }
  | .execute lib errno =>
    match w.workerIO with
    | [] => none
    | task :: rest =>
      let x := task.execution lib errno w.ep
      some { w with ep := x.after.ep, workerIO := rest, done := w.done ++ [x] }

def Step (w : EndpointWorker) (e : ClientEvent) (w' : EndpointWorker) : Prop := w.next e = some w'

/-- The execution of a call, on an endpoint that was opened with this timeout. -/
structure Served (timeout : Nat) (c : ClientCall × Memory) (x : Execution) : Prop where
  before : x.before.timeout = timeout
  after : x.after.ep.timeout = timeout
  done : match c.1 with
    | .adminXfer ctrl admin_req data timeout_ms =>
      NVMeMi.Transferred ctrl (c.2.read ⟨admin_req, sizeofAdminReqHdr⟩) (c.2.read data) timeout_ms x
    | .other .. => ∀ call ∈ x.calls, call.timeout = timeout

/-- The oldest calls have been executed, in their order, and the others are in the queue. -/
structure InOrder (timeout : Nat) (w : EndpointWorker) : Prop where
  ep : w.ep.timeout = timeout
  served : ∃ finished waiting, w.calls = finished ++ waiting ∧ List.Forall₂ (Served timeout) finished w.done ∧
    w.workerIO = waiting.map fun c => (c.1.request c.2).task

theorem served_execution (c : ClientCall) (memory : Memory) (lib : Libnvme) (errno : Int) (ep : Endpoint) :
    Served ep.timeout (c, memory) ((c.request memory).task.execution lib errno ep) := by
  cases c with
  | adminXfer ctrl admin_req data timeout_ms =>
      have htransferred := NVMeMi.transferred_adminXfer ctrl (memory.length_read ⟨admin_req, sizeofAdminReqHdr⟩)
        (memory.read data) timeout_ms lib errno ep
      exact ⟨rfl, congrArg Endpoint.timeout htransferred.restored, htransferred⟩
  | other r hother hposted =>
      obtain ⟨hafter, hcalls⟩ := Closure.timed_of_uses lib (MiRequest.uses_task_timeout hother) (.start errno ep)
      exact ⟨rfl, hafter, hcalls⟩

theorem inOrder_of_step {timeout : Nat} {w w' : EndpointWorker} {e : ClientEvent} (hw : w.InOrder timeout)
    (h : w.Step e w') : w'.InOrder timeout := by
  obtain ⟨finished, waiting, hcalls, hserved, hqueue⟩ := hw.served
  cases e with
  | write address byte =>
      obtain rfl := Option.some.inj h
      exact ⟨hw.ep, finished, waiting, hcalls, hserved, hqueue⟩
  | call c =>
      obtain rfl := Option.some.inj h
      refine ⟨hw.ep, finished, waiting ++ [(c, w.memory)], ?_, hserved, ?_⟩
      · rw [hcalls, List.append_assoc]
      · rw [hqueue, List.map_append]
        rfl
  | execute lib errno =>
      unfold Step next at h
      dsimp only at h
      rw [hqueue] at h
      cases waiting with
      | nil => cases h
      | cons c waiting =>
          obtain rfl := Option.some.inj h
          have hexecuted := served_execution c.1 c.2 lib errno w.ep
          rw [hw.ep] at hexecuted
          refine ⟨hexecuted.after, finished ++ [c], waiting, ?_, ?_, rfl⟩
          · rw [hcalls, List.append_assoc]
            rfl
          · exact List.rel_append hserved (.cons hexecuted .nil)

/-- **Transfers.** After any calls, executions and writes to the memory, those calls have been executed that are the
oldest, each with the header and the payload that were in memory when it was made, and no transfer has left another
timeout than the one that the endpoint was opened with. -/
theorem inOrder_of_run {memory : Memory} {ep : Endpoint} {es : List ClientEvent} {w : EndpointWorker}
    (hrun : Run Step (opened memory ep) es w) : w.InOrder ep.timeout :=
  hrun.invariant (InOrder ep.timeout) ⟨rfl, [], [], rfl, .nil, rfl⟩ fun _ _ _ hw h => inOrder_of_step hw h

theorem not_setsTimeout_miScanCtrl : ¬ MiRequest.miScanCtrl.SetsTimeout := id

theorem submit_miScanCtrl : MiRequest.miScanCtrl.submit true = .worker MiRequest.miScanCtrl.task := rfl

/-- A header with room for eight bytes, and a payload of two after it. -/
def transferMemory : Memory := fun address => if address = 32 then 8 else 0

/-- The payload is written over while the transfer waits, and a scan comes after it. -/
def transferRun : List ClientEvent :=
  [.call (.adminXfer ⟨1, 7⟩ 0 ⟨68, 2⟩ 60000), .write 68 255,
    .call (.other .miScanCtrl not_setsTimeout_miScanCtrl submit_miScanCtrl),
    .execute (.ok { hdr := zeros 20, data := [1, 2, 3], size := 3 }) 0, .execute (.failed 4) 0]

/-- The theorem after the transfer and the scan. -/
theorem inOrder_of_run_scan : ∃ w, Run Step (opened transferMemory ⟨1, [⟨1, 7⟩], 5000⟩) transferRun w ∧
    w.done.length = 2 ∧ w.InOrder 5000 := by
  have hnext : transferRun.foldlM next (opened transferMemory ⟨1, [⟨1, 7⟩], 5000⟩) = some _ := rfl
  have hrun : Run Step (opened transferMemory ⟨1, [⟨1, 7⟩], 5000⟩) transferRun _ := Run.of_foldlM hnext
  exact ⟨_, hrun, rfl, inOrder_of_run hrun⟩

end EndpointWorker
end NvmeManager
