import UoLogin.Accounting.Address
import UoLogin.Knock
import UoLogin.Lib.Heap
import UoLogin.Lib.Machine

set_option autoImplicit false

/-!
# The accounting of clients

Every client that is known by its address has a record in the `ClientAccountingMap`: its connections,
its delay, and whether it has knocked. `Listener::OnAccept` reads it, `DelayedConnection` and
`Connection` are registered in it, knocks and failed logins change it, and a timer disposes the records
that have expired.

* `PerClientAccounting`, `ClientAccountingMap`: the records and the operations on them;
* `Client`: a `DelayedConnection` or a `Connection`, as far as the accounting sees it;
* `Accounts`: the state, with the sockets, the requests of the knock listeners, and a journal of the
  calls on the records;
* `Accounts.step`: accepted connections, timers, hangups, charges, destructions, datagrams and the
  answers to them. What `TokenBucket::Update` returns is an input; so are the charges and the end of a
  `Connection`.
-/

namespace UoLogin

/-! ## Time

Time points and durations of the steady clock are counted in nanoseconds. -/

def milliseconds (n : ℕ) : ℕ := n * 1000000

def minutes (n : ℕ) : ℕ := n * 60000000000

/-! ## Records -/

/-- A record; `connections` holds the pointers of the clients. -/
structure PerClientAccounting where
  address : BitVec 64
  connections : List ℕ := []
  expires : ℕ := 0
  tarpitUntil : ℕ := 0
  delay : ℕ := 0
  knocked : Bool := false
  deriving DecidableEq, Repr

namespace PerClientAccounting

def tarpitFor : ℕ := minutes 1
def maxDelay : ℕ := minutes 1
def delayStep : ℕ := milliseconds 100

def check (maxConnections : ℕ) (r : PerClientAccounting) : Bool :=
  maxConnections == 0 || decide (r.connections.length < maxConnections)

def addConnection (i : ℕ) (r : PerClientAccounting) : PerClientAccounting :=
  { r with connections := r.connections ++ [i] }

def removeConnection (now i : ℕ) (r : PerClientAccounting) : PerClientAccounting :=
  { r with connections := r.connections.erase i, expires := now + minutes 5 }

/-- `UpdateTokenBucket`; `overdrawn` says that `token_bucket.Update()` returns a negative number. -/
def updateTokenBucket (tarpit : Bool) (now : ℕ) (overdrawn : Bool) (r : PerClientAccounting) :
    PerClientAccounting :=
  if tarpit = false then r
  else if overdrawn = true then
    { r with
      tarpitUntil := now + tarpitFor
      delay := if r.delay < maxDelay then r.delay + delayStep else r.delay
      knocked := false }
  else if now < r.tarpitUntil then
    { r with delay := if delayStep < r.delay then r.delay - delayStep else r.delay }
  else { r with delay := 0 }

def setKnocked (r : PerClientAccounting) : PerClientAccounting := { r with knocked := true }

/-- The cleanup disposes this record. -/
def expired (now : ℕ) (r : PerClientAccounting) : Bool :=
  r.connections.isEmpty && !decide (now < r.expires)

/-- The cleanup has to come back for this record. -/
def waiting (now : ℕ) (r : PerClientAccounting) : Bool :=
  r.connections.isEmpty && decide (now < r.expires)

end PerClientAccounting

/-- The map; `cleanupTimer` is the time at which the timer is due, if it is pending. -/
structure ClientAccountingMap where
  maxConnections : ℕ
  tarpit : Bool
  records : Heap PerClientAccounting := .empty
  cleanupTimer : Option ℕ := none

namespace ClientAccountingMap

/-- What the map was constructed with. -/
def config (m : ClientAccountingMap) : ℕ × Bool := (m.maxConnections, m.tarpit)

def modify (m : ClientAccountingMap) (p : ℕ) (f : PerClientAccounting → PerClientAccounting) :
    ClientAccountingMap :=
  { m with records := m.records.modify p f }

/-- `Get`: the pointer of the record, which may be new. -/
def get (util : AddressUtil) (peer : SocketAddress) (m : ClientAccountingMap) :
    Option ℕ × ClientAccountingMap :=
  if peer.toInteger util = 0 then (none, m)
  else
    match m.records.find fun r => r.address == peer.toInteger util with
    | some p => (some p, m)
    | none =>
      (some m.records.allocated, { m with records := m.records.alloc { address := peer.toInteger util } })

def scheduleCleanup (now : ℕ) (m : ClientAccountingMap) : ClientAccountingMap :=
  if m.cleanupTimer.isNone = true then { m with cleanupTimer := some (now + minutes 1) } else m

def removeConnection (now p i : ℕ) (m : ClientAccountingMap) : ClientAccountingMap :=
  let m := m.modify p (·.removeConnection now i)
  if (m.records.get p).any (·.connections.isEmpty) = true then m.scheduleCleanup now else m

def updateTokenBucket (now p : ℕ) (overdrawn : Bool) (m : ClientAccountingMap) :
    ClientAccountingMap :=
  m.modify p (·.updateTokenBucket m.tarpit now overdrawn)

/-- `OnCleanupTimer`; the timer is not pending any more when it is called. -/
def onCleanupTimer (now : ℕ) (m : ClientAccountingMap) : ClientAccountingMap :=
  let reschedule := (m.records.find (·.waiting now)).isSome
  let m := { m with cleanupTimer := none, records := m.records.retain fun r => !r.expired now }
  if reschedule = true then m.scheduleCleanup now else m

end ClientAccountingMap

/-! ## The state -/

/-- A `DelayedConnection` has a timer, which is due at some time. -/
inductive ClientKind where
  | delayed (timer : ℕ)
  | connection
  deriving DecidableEq, Repr

/-- A `DelayedConnection` or a `Connection`, with the `per_client` of its
`AccountedClientConnection`. -/
structure Client where
  kind : ClientKind
  peerAddress : SocketAddress
  socket : Option ℕ
  perClient : Option ℕ
  deriving DecidableEq, Repr

/-- The `Request` of a knock that has not been answered. -/
structure PendingKnock where
  nftSet : Option (List UInt8)
  address : SocketAddress
  deriving DecidableEq, Repr

/-- The calls on a record that the journal notes. -/
inductive RecordEvent where
  | setKnocked
  | updateTokenBucket (size : ℕ) (overdrawn : Bool)
  | removeConnection (client : ℕ)
  | dispose
  deriving DecidableEq, Repr

/-- An entry of the journal: when, on which record, and under which address it was accounted. -/
structure RecordEntry where
  time : ℕ
  record : ℕ
  address : Option (BitVec 64)
  event : RecordEvent
  deriving DecidableEq, Repr

structure AccountMetrics where
  acceptedKnocks : ℕ := 0
  rejectedKnocks : ℕ := 0
  malformedKnocks : ℕ := 0
  missingKnocks : ℕ := 0
  delayedConnections : ℕ := 0
  deriving DecidableEq, Repr

/-- The listeners, and the functions of other libraries. A knock listener has a `knock_nft_set` or
none. -/
structure AccountSetup where
  address : AddressUtil
  util : CharUtil
  knockListeners : List (Option (List UInt8))
  hostToString : SocketAddress → List UInt8

/-- `Instance::RequireKnock`. -/
def AccountSetup.requireKnock (setup : AccountSetup) : Bool := !setup.knockListeners.isEmpty

/-- The sockets that were accepted are numbered; `closed` holds those that were closed. -/
structure Accounts where
  now : ℕ := 0
  accounting : ClientAccountingMap
  clients : Heap Client := .empty
  requests : Heap PendingKnock := .empty
  accepted : ℕ := 0
  closed : List ℕ := []
  metrics : AccountMetrics := {}
  log : List RecordEntry := []

namespace Accounts

/-- The member `client_accounting` of a new `Instance`. -/
def new : Accounts where
  accounting := { maxConnections := 16, tarpit := true }

/-- The record behind a pointer, if it is still in the map. -/
def record (s : Accounts) (p : ℕ) : Option PerClientAccounting := s.accounting.records.get p

def note (p : ℕ) (event : RecordEvent) (s : Accounts) : Accounts :=
  { s with log := s.log ++ [⟨s.now, p, (s.record p).map (·.address), event⟩] }

def setMetrics (f : AccountMetrics → AccountMetrics) (s : Accounts) : Accounts :=
  { s with metrics := f s.metrics }

/-- `Instance::GetClientAccounting`. -/
def getClientAccounting (setup : AccountSetup) (peer : SocketAddress) (s : Accounts) :
    Option ℕ × Accounts :=
  ((s.accounting.get setup.address peer).1,
    { s with accounting := (s.accounting.get setup.address peer).2 })

def updateTokenBucket (p size : ℕ) (overdrawn : Bool) (s : Accounts) : Accounts :=
  let s := s.note p (.updateTokenBucket size (s.accounting.tarpit && overdrawn))
  { s with accounting := s.accounting.updateTokenBucket s.now p overdrawn }

def setKnocked (p : ℕ) (s : Accounts) : Accounts :=
  let s := s.note p .setKnocked
  { s with accounting := s.accounting.modify p (·.setKnocked) }

def hasKnocked (s : Accounts) (p : ℕ) : Bool := (s.record p).any (·.knocked)

def check (s : Accounts) (p : ℕ) : Bool := (s.record p).any (·.check s.accounting.maxConnections)

def getDelay (s : Accounts) (p : ℕ) : ℕ := ((s.record p).map (·.delay)).getD 0

def close (fd : ℕ) (s : Accounts) : Accounts := { s with closed := s.closed ++ [fd] }

/-- A new object, registered in its record. -/
def create (c : Client) (s : Accounts) : Accounts :=
  { s with
    clients := s.clients.alloc c
    accounting :=
      match c.perClient with
      | some p => s.accounting.modify p (·.addConnection s.clients.allocated)
      | none => s.accounting }

/-- `Listener::AddConnection`. -/
def addConnection (perClient fd : Option ℕ) (peer : SocketAddress) (s : Accounts) : Accounts :=
  s.create { kind := .connection, peerAddress := peer, socket := fd, perClient := perClient }

/-- `new DelayedConnection`. -/
def addDelayedConnection (p : ℕ) (delay : ℕ) (fd : ℕ) (peer : SocketAddress) (s : Accounts) : Accounts :=
  s.create
    { kind := .delayed (s.now + delay), peerAddress := peer, socket := some fd, perClient := some p }

/-- `RemoveConnection`, from the destructor of `AccountedClientConnection`. -/
def removeConnection (perClient : Option ℕ) (i : ℕ) (s : Accounts) : Accounts :=
  match perClient with
  | some p =>
    let s := s.note p (.removeConnection i)
    { s with accounting := s.accounting.removeConnection s.now p i }
  | none => s

/-- The destructor of the object: its socket is closed unless it was released. -/
def destroy (i : ℕ) (c : Client) (s : Accounts) : Accounts :=
  let s := match c.socket with
    | some fd => s.close fd
    | none => s
  let s := s.removeConnection c.perClient i
  { s with clients := s.clients.free i }

/-! ## Handlers -/

/-- A socket was accepted; its number is the old `accepted`. -/
def take (s : Accounts) : Accounts := { s with accepted := s.accepted + 1 }

/-- The decision of `OnAccept` on a client that has a record. A socket that is not handed on is closed
in the end. -/
def decideAccounted (setup : AccountSetup) (p fd : ℕ) (peer : SocketAddress) (s : Accounts) : Accounts :=
  if setup.requireKnock = true ∧ s.hasKnocked p = false then
    (s.setMetrics fun m => { m with missingKnocks := m.missingKnocks + 1 }).close fd
  else if s.check p = false then s.close fd
  else if 0 < s.getDelay p then
    (s.setMetrics fun m => { m with delayedConnections := m.delayedConnections + 1 }).addDelayedConnection
      p (s.getDelay p) fd peer
  else s.addConnection (some p) (some fd) peer

/-- `Listener::OnAccept`. -/
def onAccept (setup : AccountSetup) (peer : SocketAddress) (overdrawn : Bool) (s : Accounts) : Accounts :=
  match s.take.getClientAccounting setup peer with
  | (some p, s₁) => (s₁.updateTokenBucket p 1 overdrawn).decideAccounted setup p s.accepted peer
  | (none, s₁) => s₁.addConnection none (some s.accepted) peer

/-- `ReleaseSocket`. -/
def releaseSocket (i : ℕ) (s : Accounts) : Accounts :=
  { s with clients := s.clients.modify i fun c => { c with socket := none } }

/-- `DelayedConnection::OnTimer`. -/
def onTimer (i : ℕ) (c : Client) (s : Accounts) : Accounts :=
  let s := s.releaseSocket i
  let s := s.addConnection c.perClient c.socket c.peerAddress
  s.destroy i { c with socket := none }

/-- `AccountedClientConnection::UpdateTokenBucket`. -/
def charge (c : Client) (size : ℕ) (overdrawn : Bool) (s : Accounts) : Accounts :=
  match c.perClient with
  | some p => s.updateTokenBucket p size overdrawn
  | none => s

/-- `DelayedConnection::OnSocketReady`. -/
def onSocketReady (i : ℕ) (c : Client) (overdrawn : Bool) (s : Accounts) : Accounts :=
  (s.charge c 4 overdrawn).destroy i c

/-- What one act of a knock does to the record `p`. -/
def perform (p : ℕ) (overdrawn : Bool) (s : Accounts) : KnockAct → Accounts
  | .updateTokenBucket size => s.updateTokenBucket p size overdrawn
  | .malformedKnocks => s.setMetrics fun m => { m with malformedKnocks := m.malformedKnocks + 1 }
  | .rejectedKnocks => s.setMetrics fun m => { m with rejectedKnocks := m.rejectedKnocks + 1 }
  | .acceptedKnocks => s.setMetrics fun m => { m with acceptedKnocks := m.acceptedKnocks + 1 }
  | .setKnocked => s.setKnocked p
  | .nftAddElement _ _ | .delete => s

/-- `KnockListener::OnUdpDatagram`. -/
def onDatagram (setup : AccountSetup) (nftSet : Option (List UInt8)) (peer : SocketAddress)
    (payload : List UInt8) (overdrawn : Bool) (s : Accounts) : Accounts :=
  match s.getClientAccounting setup peer with
  | (some p, s) =>
    match onUdpDatagram setup.util true payload with
    | .handled acts => acts.foldl (perform p overdrawn) s
    | .request _ _ => { s with requests := s.requests.alloc ⟨nftSet, peer⟩ }
  | (none, s) => s

/-- `Request::OnCheckCredentials`; the request is deleted if this is among what is done. -/
def onKnockAnswer (setup : AccountSetup) (k : ℕ) (knock : PendingKnock) (result overdrawn : Bool)
    (s : Accounts) : Accounts :=
  match s.getClientAccounting setup knock.address with
  | (some p, s) =>
    let acts := Request.onCheckCredentials ⟨knock.nftSet, setup.hostToString knock.address⟩ true result
    let s := acts.foldl (perform p overdrawn) s
    if .delete ∈ acts then { s with requests := s.requests.free k } else s
  | (none, s) => s

def onCleanupTimer (s : Accounts) : Accounts :=
  { s with
    accounting := s.accounting.onCleanupTimer s.now
    log := s.log ++ (s.accounting.records.select (·.expired s.now)).map fun p =>
      ⟨s.now, p, (s.record p).map (·.address), .dispose⟩ }

/-! ## Runs -/

/-- What the event loop calls. `overdrawn` is the answer of the token bucket, if it is asked. -/
inductive Input where
  | tick (duration : ℕ)
  | accept (peer : SocketAddress) (overdrawn : Bool)
  | timer (i : ℕ)
  | socketReady (i : ℕ) (overdrawn : Bool)
  | charge (i size : ℕ) (overdrawn : Bool)
  | destroy (i : ℕ)
  | datagram (listener : ℕ) (peer : SocketAddress) (payload : List UInt8) (overdrawn : Bool)
  | knockAnswer (k : ℕ) (result overdrawn : Bool)
  | cleanup
  deriving DecidableEq, Repr

/-- Timers do not fire before they are due, and events come only to objects that exist. -/
def step (setup : AccountSetup) (s : Accounts) : Input → Option Accounts
  | .tick duration => some { s with now := s.now + duration }
  | .accept peer overdrawn => some (s.onAccept setup peer overdrawn)
  | .timer i =>
    match s.clients.get i with
    | some c =>
      match c.kind with
      | .delayed timer => if timer ≤ s.now then some (s.onTimer i c) else none
      | .connection => none
    | none => none
  | .socketReady i overdrawn =>
    match s.clients.get i with
    | some c => if c.kind ≠ .connection then some (s.onSocketReady i c overdrawn) else none
    | none => none
  | .charge i size overdrawn =>
    match s.clients.get i with
    | some c => if c.kind = .connection then some (s.charge c size overdrawn) else none
    | none => none
  | .destroy i =>
    match s.clients.get i with
    | some c => if c.kind = .connection then some (s.destroy i c) else none
    | none => none
  | .datagram listener peer payload overdrawn =>
    (setup.knockListeners[listener]?).map fun nftSet => s.onDatagram setup nftSet peer payload overdrawn
  | .knockAnswer k result overdrawn =>
    (s.requests.get k).map fun knock => s.onKnockAnswer setup k knock result overdrawn
  | .cleanup =>
    match s.accounting.cleanupTimer with
    | some due => if due ≤ s.now then some s.onCleanupTimer else none
    | none => none

/-- These inputs lead from the start of the daemon to `s`. -/
def Run (setup : AccountSetup) (inputs : List Input) (s : Accounts) : Prop :=
  Machine.run (step setup) new inputs = some s

end Accounts

end UoLogin
