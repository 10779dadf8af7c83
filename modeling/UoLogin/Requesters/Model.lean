import UoLogin.Accounting.Model
import UoLogin.Lib.Callbacks

set_option autoImplicit false

/-!
# Who asks for the credentials

Connections and the requests of knocks ask the database to check credentials. A check that is queued is a
`CheckCredentialsJob` with a callback to its requester, whose `cancel_ptr` refers to the job. A worker
runs the job, and the event loop calls `Done()`; the destructor of a connection cancels its job.

* `Daemon`: the connections, the database with its jobs, the requests, and a log of what happens to
  jobs and requesters;
* `Daemon.step`: everything that the event loop and the workers do, in any order. The queue of the
  thread pool is that of `Checker`: `Cancel()` succeeds as long as no worker has started the job.
-/

namespace UoLogin

open Connection

/-- Who is called back: a `Connection`, or the `Request` of a knock. -/
inductive Requester where
  | connection (id : ℕ)
  | knock (k : ℕ)
  deriving DecidableEq, Repr

/-- The configuration, and the functions of other libraries. -/
structure DaemonSetup where
  config : Config
  verifier : Verifier
  address : AddressUtil
  hostToString : SocketAddress → List UInt8

def DaemonSetup.setup (setup : DaemonSetup) : Setup := setup.verifier.setup setup.config

/-- `GetClientAccounting` finds or makes a record, unless the address has no number. -/
def DaemonSetup.accounted (setup : DaemonSetup) (address : SocketAddress) : Bool :=
  address.toInteger setup.address != 0

/-- `callbacks` is the member `callback` of the jobs, `cancelPtr` the member `cancel_ptr` of the
requesters as it was set last. -/
structure Daemon where
  inst : Instance := {}
  checker : Checker
  requests : Heap PendingKnock := .empty
  callbacks : ℕ → Option Requester := fun _ => none
  cancelPtr : Requester → Option ℕ := fun _ => none
  log : List (Callbacks.Entry Requester) := []

/-- The credentials that a handler has passed to `CheckCredentials`, if it has called it. -/
def Act.credentials : Act → Option (List UInt8 × List UInt8)
  | .checkCredentials username password => some (username, password)
  | _ => none

def Connection.consulted (c c' : Connection) : Option (List UInt8 × List UInt8) :=
  (c'.log.drop c.log.length).findSome? Act.credentials

namespace Daemon

def emits (es : List (Callbacks.Entry Requester)) (s : Daemon) : Daemon := { s with log := s.log ++ es }

/-- How `CheckCredentials` would end now. -/
def checked (s : Daemon) (reload : ReloadAnswers) : Database.Checked :=
  (s.checker.database.checkCredentials reload).1

/-- `CheckCredentials`, up to its return. A callback before that is noted; what it does is up to the
requester. -/
def checkCredentials (r : Requester) (username password : List UInt8) (reload : ReloadAnswers)
    (s : Daemon) : Daemon :=
  let call := s.checker.calls
  let next := { s with checker := s.checker.checkCredentials username password reload }
  match s.checked reload with
  | .throws _ => next
  | .calledBack => next.emits [.callback call r]
  | .queued =>
    let next := next.emits [.submit call r]
    { next with
      callbacks := Function.update next.callbacks call (some r)
      cancelPtr := Function.update next.cancelPtr r (some call) }

/-- `cancel_ptr.Cancel()`. A job that is not there any more would be noted all the same. -/
def cancel (r : Requester) (s : Daemon) : Daemon :=
  match s.cancelPtr r with
  | none => s
  | some call =>
    match s.checker.jobs call with
    | none => s.emits (Callbacks.cancelling call false)
    | some job =>
      let s := s.emits (Callbacks.cancelling call (decide (job.state = .waiting)))
      { s with checker := s.checker.cancelJob call job }

/-- What a handler of a connection leaves. The destructor cancels the check; the end of the process
destroys nothing. -/
def settle (id : ℕ) (stock : PipeStock UInt8) (r : Result) (s : Daemon) : Daemon :=
  match r with
  | .alive _ => { s with inst := s.inst.settle id stock r }
  | .destroyed c =>
    let s := if c.cancelPtr then s.cancel (.connection id) else s
    let s := { s with inst := s.inst.settle id stock r }
    s.emits [.destroy (.connection id)]
  | .crashed why _ => { s with inst := { s.inst with crashed := some why } }

/-- A callback of a connection other than that of its job. -/
def event (setup : DaemonSetup) (id : ℕ) (c : Connection) (e : Event) (ans : Answers)
    (reload : ReloadAnswers) (s : Daemon) : Option Daemon :=
  (dispatch setup.setup s.inst.stock c (ans.with (s.checked reload)) e).map fun (stock, r) =>
    match c.consulted r.conn with
    | some (username, password) =>
      (s.checkCredentials (.connection id) username password reload).settle id stock r
    | none => s.settle id stock r

/-- `Request::OnCheckCredentials`, as far as the request is concerned. -/
def answer (setup : DaemonSetup) (k : ℕ) (knock : PendingKnock) (result : Bool) (s : Daemon) : Daemon :=
  let req : Request := ⟨knock.nftSet, setup.hostToString knock.address⟩
  if .delete ∈ req.onCheckCredentials (setup.accounted knock.address) result then
    let s := { s with requests := s.requests.free k }
    s.emits [.destroy (.knock k)]
  else s

/-- `KnockListener::OnUdpDatagram`, with the constructor of `Request`. -/
def onDatagram (setup : DaemonSetup) (nftSet : Option (List UInt8)) (address : SocketAddress)
    (payload : List UInt8) (reload : ReloadAnswers) (s : Daemon) : Daemon :=
  match onUdpDatagram setup.verifier.util (setup.accounted address) payload with
  | .handled _ => s
  | .request username password =>
    let k := s.requests.allocated
    let knock : PendingKnock := ⟨nftSet, address⟩
    let next : Daemon := { s with requests := s.requests.alloc knock }
    let next := next.checkCredentials (.knock k) username password reload
    match s.checked reload with
    | .throws _ => { next with checker := { next.checker with crashed := some .throws } }
    | .calledBack => next.answer setup k knock true
    | .queued => next

/-- The callback of a job. A requester that is not there any more would be noted all the same. -/
def callBack (setup : DaemonSetup) (call : ℕ) (r : Requester) (username : List UInt8) (result : Bool)
    (ans : Answers) (s : Daemon) : Daemon :=
  let s := s.emits [.callback call r]
  match r with
  | .connection id =>
    match s.inst.conns id with
    | .live c =>
      s.settle id s.inst.stock ((c.setJob none).onCheckCredentials setup.setup ans username result)
    | _ => s
  | .knock k =>
    match s.requests.get k with
    | some knock => s.answer setup k knock result
    | none => s

/-- `Done()`. -/
def done (setup : DaemonSetup) (call : ℕ) (job : Job) (result : Bool) (ans : Answers) (s : Daemon) :
    Daemon :=
  let s := s.emits [.done call]
  let s := if job.canceled then s else
    match s.callbacks call with
    | some r => s.callBack setup call r job.username result ans
    | none => s
  match s.inst.crashed with
  | some _ => s
  | none =>
    let s := { s with checker := s.checker.doneJob call job result }
    s.emits [.free call]

/-- What the event loop and the workers do. `destroy` is that of a connection at shutdown. -/
inductive Input where
  | accept (id : ℕ) (remoteHost : List UInt8) (perClient : Option UInt64)
  | arrive (id : ℕ) (side : Side) (bytes : List UInt8)
  | discard (k : ℕ)
  | event (id : ℕ) (e : Event) (ans : Answers) (reload : ReloadAnswers)
  | destroy (id : ℕ)
  | datagram (nftSet : Option (List UInt8)) (address : SocketAddress) (payload : List UInt8)
      (reload : ReloadAnswers)
  | start (call : ℕ)
  | run (call : ℕ) (getFails : Bool)
  | done (call : ℕ) (ans : Answers)

/-- An input that only concerns the connections. -/
def stepInstance (setup : DaemonSetup) (input : UoLogin.Input) (s : Daemon) : Option Daemon :=
  (s.inst.step setup.setup input).map fun inst => { s with inst := inst }

/-- What a worker does. -/
def stepChecker (setup : DaemonSetup) (input : Checker.Input) (s : Daemon) : Option Daemon :=
  (s.checker.step setup.verifier input).map fun checker => { s with checker := checker }

/-- One input, while the process runs. The verdict on the job of a connection only comes from its
`Done()`. -/
def step (setup : DaemonSetup) (s : Daemon) (input : Input) : Option Daemon :=
  match s.inst.crashed, s.checker.crashed with
  | none, none =>
    match input with
    | .accept id remoteHost perClient => s.stepInstance setup (.accept id remoteHost perClient)
    | .arrive id side bytes => s.stepInstance setup (.arrive id side bytes)
    | .discard k => s.stepInstance setup (.discard k)
    | .event id e ans reload =>
      match s.inst.conns id, e with
      | _, .checkDone _ => none
      | .live c, e => s.event setup id c e ans reload
      | _, _ => none
    | .destroy id =>
      match s.inst.conns id with
      | .live c => some (s.settle id s.inst.stock (.destroyed c))
      | _ => none
    | .datagram nftSet address payload reload => some (s.onDatagram setup nftSet address payload reload)
    | .start call => s.stepChecker setup (.start call)
    | .run call getFails => s.stepChecker setup (.run call getFails)
    | .done call ans =>
      match s.checker.jobs call with
      | some job =>
        match job.state with
        | .finished result => some (s.done setup call job result ans)
        | _ => none
      | none => none
  | _, _ => none

/-- The runs of a daemon with this database. -/
def Run (setup : DaemonSetup) (d : Database) (inputs : List Input) (s : Daemon) : Prop :=
  Machine.run (step setup) { checker := { database := d } } inputs = some s

end Daemon

end UoLogin
