import NvmeManager.Lib.Prog
import NvmeManager.Mi.Libnvme

/-!
# Closures posted to a thread

* `ErrorCode`, `Payload`, `Reply` : what the callback of a request is run with;
* `Op`, `Closure` : what the closure of a request does: libnvme commands, the thread's `errno`, the endpoint's timeout,
  and `io.post` of the callback;
* `Thread`, `serve` : the state such a closure runs in, and the meaning of its operations;
* `Made` : a libnvme command that was made, its answer, and how many scans the endpoint had seen before it.
-/

namespace NvmeManager

/-! ## Replies -/

/-- A `std::error_code` of the generic category; zero is no error. -/
structure ErrorCode where
  value : Int
  deriving DecidableEq, Repr

namespace ErrorCode

def noError : ErrorCode := ⟨0⟩
/-- `ENODEV` -/
def no_such_device : ErrorCode := ⟨19⟩
/-- `EINVAL` -/
def invalid_argument : ErrorCode := ⟨22⟩
/-- `EPROTO` -/
def protocol_error : ErrorCode := ⟨71⟩
/-- `EBADMSG` -/
def bad_message : ErrorCode := ⟨74⟩

/-- `std::make_error_code(static_cast<std::errc>(e))` -/
def ofErrno (e : Int) : ErrorCode := ⟨e⟩

def isError (ec : ErrorCode) : Bool := ec.value ≠ 0

theorem isError_ofErrno {e : Int} (h : e ≠ 0) : (ofErrno e).isError = true := decide_eq_true h

end ErrorCode

/-- The arguments of a callback after the error code. -/
inductive Payload
  | null
  | port (p : PortInfo)
  | health (h : HealthStatus)
  | ctrls (list : List Ctrl)
  | span (data : List UInt8)
  | response (hdr data : List UInt8)
  | fwStatus (status : Int)
  | security (status : Int)
  | securityData (status : Int) (data : List UInt8)
  deriving DecidableEq, Repr

/-- A null pointer, an empty span or an empty vector. -/
def Payload.isNone : Payload → Bool
  | null => true
  | span data => data.isEmpty
  | ctrls list => list.isEmpty
  | _ => false

/-- The controllers of a scan. A callback reads a payload of its own kind; any other reads as empty or zero. -/
def Payload.ctrlList : Payload → List Ctrl
  | ctrls list => list
  | _ => []

def Payload.portInfo : Payload → PortInfo
  | port p => p
  | _ => default

def Payload.healthStatus : Payload → HealthStatus
  | health h => h
  | _ => default

def Payload.bytes : Payload → List UInt8
  | span data => data
  | _ => []

/-- What the callback of a request is run with. -/
structure Reply where
  ec : ErrorCode
  payload : Payload
  deriving DecidableEq, Repr

/-! ## Operations -/

inductive Op
  | nvme (c : NvmeCall)
  | forEachCtrl
  | errno
  | setErrno (e : Int)
  | getTimeout
  | setTimeout (ms : Nat)
  | ioPost (r : Reply)

def Op.Ans : Op → Type
  | nvme _ => Answer
  | forEachCtrl => List Ctrl
  | errno => Int
  | getTimeout => Nat
  | setErrno _ | setTimeout _ | ioPost _ => Unit

/-- What a closure posted to a thread does. -/
abbrev Closure (α : Type) := Prog Op.Ans α

namespace Closure

def nvme (c : NvmeCall) : Closure Answer := Prog.perform (Op.nvme c)
def nvme_mi_for_each_ctrl : Closure (List Ctrl) := Prog.perform Op.forEachCtrl
def errno : Closure Int := Prog.perform Op.errno
def setErrno (e : Int) : Closure Unit := Prog.perform (Op.setErrno e)
def nvme_mi_ep_get_timeout : Closure Nat := Prog.perform Op.getTimeout
def nvme_mi_ep_set_timeout (ms : Nat) : Closure Unit := Prog.perform (Op.setTimeout ms)
/-- `self->io.post` of the request's callback. -/
def ioPost (r : Reply) : Closure Unit := Prog.perform (Op.ioPost r)

end Closure

/-! ## Execution -/

/-- A libnvme command that was made: after how many scans of the endpoint, and with which answer. -/
structure Made where
  call : NvmeCall
  scans : Nat
  ans : Answer

/-- The state a closure runs in: the thread's `errno`, the endpoint, the commands the closure has made and the callbacks it
has posted to the main loop, oldest first. -/
structure Thread where
  errno : Int
  ep : Endpoint
  made : List Made
  posted : List Reply

namespace Thread
variable (t : Thread)

def start (errno : Int) (ep : Endpoint) : Thread := ⟨errno, ep, [], []⟩

def call (c : NvmeCall) (a : Answer) : Thread :=
  { t with
    errno := a.errnoAfter t.errno
    ep := t.ep.after c a
    made := t.made ++ [⟨c, t.ep.scans, a⟩] }

def post (r : Reply) : Thread := { t with posted := t.posted ++ [r] }

@[simp] theorem made_start (e : Int) (ep : Endpoint) : (start e ep).made = [] := rfl
@[simp] theorem posted_start (e : Int) (ep : Endpoint) : (start e ep).posted = [] := rfl
@[simp] theorem errno_start (e : Int) (ep : Endpoint) : (start e ep).errno = e := rfl
@[simp] theorem ep_start (e : Int) (ep : Endpoint) : (start e ep).ep = ep := rfl
@[simp] theorem made_call (c : NvmeCall) (a : Answer) :
    (t.call c a).made = t.made ++ [⟨c, t.ep.scans, a⟩] := rfl
@[simp] theorem posted_call (c : NvmeCall) (a : Answer) : (t.call c a).posted = t.posted := rfl
@[simp] theorem ep_call (c : NvmeCall) (a : Answer) : (t.call c a).ep = t.ep.after c a := rfl
@[simp] theorem errno_call (c : NvmeCall) (a : Answer) :
    (t.call c a).errno = a.errnoAfter t.errno := rfl
@[simp] theorem made_post (r : Reply) : (t.post r).made = t.made := rfl
@[simp] theorem posted_post (r : Reply) : (t.post r).posted = t.posted ++ [r] := rfl
@[simp] theorem ep_post (r : Reply) : (t.post r).ep = t.ep := rfl
@[simp] theorem errno_post (r : Reply) : (t.post r).errno = t.errno := rfl

end Thread

/-- The meaning of an operation on the thread that performs it. -/
def serve (lib : Libnvme) : (o : Op) → Thread → o.Ans × Thread
  | .nvme c, t => (lib t.made.length c, t.call c (lib t.made.length c))
  | .forEachCtrl, t => (t.ep.ctrls, t)
  | .errno, t => (t.errno, t)
  | .setErrno e, t => ((), { t with errno := e })
  | .getTimeout, t => (t.ep.timeout, t)
  | .setTimeout ms, t => ((), { t with ep := { t.ep with timeout := ms } })
  | .ioPost r, t => ((), t.post r)

def Closure.exec {α : Type} (p : Closure α) (lib : Libnvme) (t : Thread) : α × Thread := p.run (serve lib) t

section Exec
variable {α β : Type} (lib : Libnvme) (t : Thread)

namespace Closure

@[simp] theorem exec_pure (a : α) : (pure a : Closure α).exec lib t = (a, t) := rfl

@[simp] theorem exec_bind (p : Closure α) (f : α → Closure β) :
    (p >>= f).exec lib t = (f (p.exec lib t).1).exec lib (p.exec lib t).2 :=
  Prog.run_bind (serve lib) p f t

@[simp] theorem exec_nvme (c : NvmeCall) :
    (nvme c).exec lib t = (lib t.made.length c, t.call c (lib t.made.length c)) := rfl

@[simp] theorem exec_forEachCtrl : nvme_mi_for_each_ctrl.exec lib t = (t.ep.ctrls, t) := rfl

@[simp] theorem exec_errno : errno.exec lib t = (t.errno, t) := rfl

@[simp] theorem exec_setErrno (e : Int) : (setErrno e).exec lib t = ((), { t with errno := e }) := rfl

@[simp] theorem exec_getTimeout : nvme_mi_ep_get_timeout.exec lib t = (t.ep.timeout, t) := rfl

@[simp] theorem exec_setTimeout (ms : Nat) :
    (nvme_mi_ep_set_timeout ms).exec lib t = ((), { t with ep := { t.ep with timeout := ms } }) := rfl

@[simp] theorem exec_ioPost (r : Reply) : (ioPost r).exec lib t = ((), t.post r) := rfl

end Closure
end Exec

end NvmeManager
