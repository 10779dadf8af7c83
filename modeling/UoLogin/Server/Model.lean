import UoLogin.Accounting.Gate
import UoLogin.Metrics
import UoLogin.Requesters.Vouched

set_option autoImplicit false

/-!
# The whole daemon

An `Instance` with its listeners: the accounting of clients, and the connections and requests with the
database that they ask. A client number of the accounting is the number of its `Connection`.

* `Server`: both parts, the lists of the `Listener`, and a journal of what the connections did;
* `follow`: what a callback of a connection does to the accounting;
* `Server.step`: everything that the event loop, the kernel, the clients and the workers do, in any order;
  `onShutdown` is the last handler that touches the listeners.

A callback runs to its end in one step. What the token bucket answers to its charges is an input.
-/

namespace UoLogin

open Connection

/-- The configuration, and the knock listeners with their `knock_nft_set`. -/
structure ServerSetup where
  daemon : DaemonSetup
  knockListeners : List (Option (List UInt8))

def ServerSetup.accounts (setup : ServerSetup) : AccountSetup where
  address := setup.daemon.address
  util := setup.daemon.verifier.util
  knockListeners := setup.knockListeners
  hostToString := setup.daemon.hostToString

/-- `connections` and `delayedConnections` are the lists of the listener; `stopping` says that `OnShutdown`
was called. -/
structure Server where
  accounts : Accounts := .new
  daemon : Daemon
  connections : List ℕ := []
  delayedConnections : List ℕ := []
  stopping : Bool := false
  journal : List (ℕ × Act) := []

/-- The charge of a connection that an entry of its log is. -/
def Act.tokens : Act → Option ℕ
  | .updateTokenBucket size => some size
  | _ => none

namespace Server

/-- The connections, with the counters of the `Instance`. -/
def metered (s : Server) : Metered where
  inst := s.daemon.inst
  connections := s.connections
  journal := s.journal

/-- The process has not ended. -/
def running (s : Server) : Bool := s.daemon.inst.crashed.isNone && s.daemon.checker.crashed.isNone

/-- An input of the accounting. -/
def tellAccounts (setup : ServerSetup) (input : Accounts.Input) (s : Server) : Option Server :=
  (s.accounts.step setup.accounts input).map fun accounts => { s with accounts := accounts }

/-- An input of the connections, the requests and the database. -/
def tellDaemon (setup : ServerSetup) (input : Daemon.Input) (s : Server) : Option Server :=
  (s.daemon.step setup.daemon input).map fun daemon => { s with daemon := daemon }

/-- What connection `id` has done since `old`. -/
def acts (old : Daemon) (id : ℕ) (s : Server) : List Act :=
  (s.daemon.inst.conns id).log.drop (old.inst.conns id).log.length

def note (id : ℕ) (acts : List Act) (s : Server) : Server :=
  { s with journal := s.journal ++ acts.map fun a => (id, a) }

/-- `UpdateTokenBucket`, once for each size. -/
def charges (setup : ServerSetup) (id : ℕ) : List ℕ → List Bool → Server → Option Server
  | [], _, s => some s
  | size :: sizes, overdrawn, s =>
    (s.tellAccounts setup (.charge id size (overdrawn.headD false))).bind
      (charges setup id sizes overdrawn.tail)

/-- What a callback of connection `id` does to the accounting and to the list of the listener. -/
def follow (setup : ServerSetup) (old : Daemon) (id : ℕ) (overdrawn : List Bool) (s : Server) :
    Option Server :=
  let acts := s.acts old id
  ((s.note id acts).charges setup id (acts.filterMap Act.tokens) overdrawn).bind fun s =>
    match s.daemon.inst.conns id with
    | .gone _ =>
      (s.tellAccounts setup (.destroy id)).map fun s => { s with connections := s.connections.erase id }
    | _ => some s

/-- `Listener::AddConnection`, of a client that is registered. -/
def addConnection (setup : ServerSetup) (i : ℕ) (c : Client) (s : Server) : Option Server :=
  let perClient := (c.perClient.bind s.accounts.record).map fun r => UInt64.ofBitVec r.address
  (s.tellDaemon setup (.accept i (setup.daemon.hostToString c.peerAddress) perClient)).map fun next =>
    { next.note i (next.acts s.daemon i) with connections := i :: s.connections }

/-- What `OnAccept` or `OnTimer` has made of a client, if it has. -/
def register (setup : ServerSetup) (i : ℕ) (s : Server) : Option Server :=
  match s.accounts.clients.get i with
  | some c =>
    match c.kind with
    | .connection => s.addConnection setup i c
    | .delayed _ => some { s with delayedConnections := s.delayedConnections ++ [i] }
  | none => some s

/-- `Listener::OnAccept`. -/
def onAccept (setup : ServerSetup) (peer : SocketAddress) (overdrawn : Bool) (s : Server) :
    Option Server :=
  (s.tellAccounts setup (.accept peer overdrawn)).bind (register setup s.accounts.clients.allocated)

/-- `DelayedConnection::OnTimer`. -/
def onTimer (setup : ServerSetup) (i : ℕ) (s : Server) : Option Server :=
  ((s.tellAccounts setup (.timer i)).bind (register setup s.accounts.clients.allocated)).map fun s =>
    { s with delayedConnections := s.delayedConnections.erase i }

/-- `DelayedConnection::OnSocketReady`. -/
def onSocketReady (setup : ServerSetup) (i : ℕ) (overdrawn : Bool) (s : Server) : Option Server :=
  (s.tellAccounts setup (.socketReady i overdrawn)).map fun s =>
    { s with delayedConnections := s.delayedConnections.erase i }

/-- A callback of a connection other than that of its job. -/
def onEvent (setup : ServerSetup) (id : ℕ) (e : Event) (ans : Answers) (reload : ReloadAnswers)
    (overdrawn : List Bool) (s : Server) : Option Server :=
  (s.tellDaemon setup (.event id e ans reload)).bind (follow setup s.daemon id overdrawn)

/-- `KnockListener::OnUdpDatagram`. Without a database the request is answered at once. -/
def onDatagram (setup : ServerSetup) (listener : ℕ) (peer : SocketAddress) (payload : List UInt8)
    (reload : ReloadAnswers) (overdrawn : Bool) (s : Server) : Option Server :=
  (setup.knockListeners[listener]?).bind fun nftSet =>
    (s.tellAccounts setup (.datagram listener peer payload overdrawn)).bind fun next =>
      (next.tellDaemon setup (.datagram nftSet peer payload reload)).bind fun next =>
        match onUdpDatagram setup.daemon.verifier.util (setup.daemon.accounted peer) payload,
          s.daemon.checked reload with
        | .request _ _, .calledBack =>
          next.tellAccounts setup (.knockAnswer s.daemon.requests.allocated true overdrawn)
        | _, _ => some next

/-- `Done()` of a job, which calls its requester back unless it was cancelled. -/
def onDone (setup : ServerSetup) (call : ℕ) (ans : Answers) (overdrawn : List Bool) (s : Server) :
    Option Server :=
  (s.daemon.checker.jobs call).bind fun job =>
    (s.tellDaemon setup (.done call ans)).bind fun next =>
      if job.canceled then some next
      else
        match s.daemon.callbacks call, job.state with
        | some (.connection id), _ => next.follow setup s.daemon id overdrawn
        | some (.knock k), .finished result =>
          next.tellAccounts setup (.knockAnswer k result (overdrawn.headD false))
        | _, _ => some next

/-! ## Shutdown -/

/-- `delete` of a `DelayedConnection`. -/
def disposeDelayed (s : Server) (i : ℕ) : Server :=
  match s.accounts.clients.get i with
  | some c =>
    { s with
      accounts := s.accounts.destroy i c
      delayedConnections := s.delayedConnections.erase i }
  | none => s

/-- `delete` of a `Connection`. -/
def dispose (setup : ServerSetup) (s : Server) (id : ℕ) : Option Server :=
  (s.tellDaemon setup (.destroy id)).bind (follow setup s.daemon id [])

/-- `client_accounting.Shutdown()`. -/
def shutdownAccounting (s : Server) : Server :=
  { s with accounts := { s.accounts with accounting := { s.accounts.accounting with cleanupTimer := none } } }

/-- `Instance::OnShutdown`, with the destructor of the listener. -/
def onShutdown (setup : ServerSetup) (s : Server) : Option Server :=
  let s := s.delayedConnections.foldl disposeDelayed s
  (s.connections.foldlM (dispose setup) s).map fun s => { s.shutdownAccounting with stopping := true }

/-! ## Runs -/

inductive Input where
  | tick (duration : ℕ)
  | accept (peer : SocketAddress) (overdrawn : Bool)
  | timer (i : ℕ)
  | socketReady (i : ℕ) (overdrawn : Bool)
  | arrive (id : ℕ) (side : Side) (bytes : List UInt8)
  | discard (k : ℕ)
  | event (id : ℕ) (e : Event) (ans : Answers) (reload : ReloadAnswers) (overdrawn : List Bool)
  | datagram (listener : ℕ) (peer : SocketAddress) (payload : List UInt8) (reload : ReloadAnswers)
      (overdrawn : Bool)
  | start (call : ℕ)
  | run (call : ℕ) (getFails : Bool)
  | done (call : ℕ) (ans : Answers) (overdrawn : List Bool)
  | cleanup
  | shutdown

/-- What `Request::OnCheckCredentials` does. -/
def answer (setup : ServerSetup) (knock : PendingKnock) (result : Bool) : List KnockAct :=
  Request.onCheckCredentials ⟨knock.nftSet, setup.daemon.hostToString knock.address⟩
    (setup.daemon.accounted knock.address) result

/-- What an input does about a knock. -/
def knockActs (setup : ServerSetup) (s : Server) : Input → List KnockAct
  | .datagram listener peer payload reload _ =>
    match setup.knockListeners[listener]? with
    | none => []
    | some nftSet =>
      match onUdpDatagram setup.daemon.verifier.util (setup.daemon.accounted peer) payload,
        s.daemon.checked reload with
      | .handled acts, _ => acts
      | .request _ _, .calledBack => answer setup ⟨nftSet, peer⟩ true
      | .request _ _, _ => []
  | .done call _ _ =>
    match s.daemon.checker.jobs call, s.daemon.callbacks call with
    | some job, some (.knock k) =>
      match job.canceled, job.state, s.daemon.requests.get k with
      | false, .finished result, some knock => answer setup knock result
      | _, _, _ => []
    | _, _ => []
  | _ => []

/-- One input, while the process runs. Nothing is accepted or received after `OnShutdown`. -/
def step (setup : ServerSetup) (s : Server) (input : Input) : Option Server :=
  if s.running = false then none
  else
    match input with
    | .tick duration => s.tellAccounts setup (.tick duration)
    | .accept peer overdrawn => if s.stopping then none else s.onAccept setup peer overdrawn
    | .timer i => s.onTimer setup i
    | .socketReady i overdrawn => s.onSocketReady setup i overdrawn
    | .arrive id side bytes => s.tellDaemon setup (.arrive id side bytes)
    | .discard k => s.tellDaemon setup (.discard k)
    | .event id e ans reload overdrawn => s.onEvent setup id e ans reload overdrawn
    | .datagram listener peer payload reload overdrawn =>
      if s.stopping then none else s.onDatagram setup listener peer payload reload overdrawn
    | .start call => s.tellDaemon setup (.start call)
    | .run call getFails => s.tellDaemon setup (.run call getFails)
    | .done call ans overdrawn => s.onDone setup call ans overdrawn
    | .cleanup => s.tellAccounts setup .cleanup
    | .shutdown => if s.stopping then none else s.onShutdown setup

/-- The runs of a daemon with this database. -/
def Run (setup : ServerSetup) (d : Database) (inputs : List Input) (s : Server) : Prop :=
  Machine.run (step setup) { daemon := { checker := { database := d } } } inputs = some s

end Server

end UoLogin
