import Mathlib.Data.Int.Notation
import UoLogin.Packets
import UoLogin.Splice

set_option autoImplicit false

/-!
# The state of a connection

`Connection` holds the members of the class of that name, the two byte streams that the kernel keeps
for it, the credential check that is on its way, and a `log` of what the connection did, in order:
the log is a history and no function reads it.

What the kernel, libcommon and the database answer during one event handler is an input of the
model, collected in `Answers`. A handler ends with the connection alive, with a call of `Destroy()`,
or with the end of the process (`Result`).
-/

namespace UoLogin

/-! ## Sockets -/

/-- The two peers of a connection. -/
inductive Side where
  | client
  | server
  deriving DecidableEq, Repr

/-- The two directions, named after their `Splice`s: `inOut` runs from the client to the server. -/
inductive Dir where
  | inOut
  | outIn
  deriving DecidableEq, Repr

def Dir.source : Dir → Side
  | .inOut => .client
  | .outIn => .server

def Dir.sink : Dir → Side
  | .inOut => .server
  | .outIn => .client

/-- The direction that reads from a peer. -/
def Side.outOf : Side → Dir
  | .client => .inOut
  | .server => .outIn

/-- The direction that writes to a peer. -/
def Side.into : Side → Dir
  | .client => .outIn
  | .server => .inOut

/-- A `SocketEvent`: whether it has a socket, and the scheduled flags. -/
structure SocketEvent where
  defined : Bool := false
  read : Bool := false
  write : Bool := false
  readHangup : Bool := false
  deriving DecidableEq, Repr

namespace SocketEvent

def scheduleRead (s : SocketEvent) : SocketEvent := { s with read := true }
def cancelOnlyRead (s : SocketEvent) : SocketEvent := { s with read := false }
def scheduleWrite (s : SocketEvent) : SocketEvent := { s with write := true }
def cancelOnlyWrite (s : SocketEvent) : SocketEvent := { s with write := false }

end SocketEvent

/-- The flags of one callback. -/
structure Events where
  read : Bool := false
  write : Bool := false
  error : Bool := false
  hangup : Bool := false
  readHangup : Bool := false
  deriving DecidableEq, Repr

/-- `events & DEAD_MASK`. -/
def Events.dead (events : Events) : Bool := events.error || events.hangup || events.readHangup

/-- A `SocketEvent` dispatches only scheduled flags, error and hangup. -/
def SocketEvent.dispatches (s : SocketEvent) (events : Events) : Bool :=
  s.defined && (!events.read || s.read) && (!events.write || s.write) &&
    (!events.readHangup || s.readHangup) && (events.read || events.write || events.dead)

/-- The receiving side of a socket in the kernel: what the daemon has read, and what is still
unread. -/
structure Inbound where
  consumed : List UInt8 := []
  queue : List UInt8 := []
  deriving DecidableEq, Repr

/-- Everything the peer has sent. -/
def Inbound.stream (s : Inbound) : List UInt8 := s.consumed ++ s.queue

/-- How a read ends: with at most `n + 1` bytes, or with nothing. -/
inductive ReadChoice where
  | upTo (n : ℕ)
  | fails
  deriving DecidableEq, Repr

/-- `ReadNoWait` into a buffer of `max` bytes; `none` is a return value of at most 0. -/
def Inbound.readNoWait (s : Inbound) (max : ℕ) : ReadChoice → Option (List UInt8) × Inbound
  | .upTo n =>
    if (s.queue.take (min (n + 1) max)).isEmpty then (none, s)
    else (some (s.queue.take (min (n + 1) max)),
      { consumed := s.consumed ++ s.queue.take (min (n + 1) max)
        queue := s.queue.drop (min (n + 1) max) })
  | .fails => (none, s)

/-- How `Send` ends: it takes the whole buffer, at most `n + 1` bytes of it, or fails. -/
inductive SendChoice where
  | all
  | short (n : ℕ)
  | fails
  deriving DecidableEq, Repr

/-- The bytes that `Send` takes. -/
def SendChoice.accepted (buffer : List UInt8) : SendChoice → Option (List UInt8)
  | .all => some buffer
  | .short n => some (buffer.take (n + 1))
  | .fails => none

/-! ## What a connection does -/

inductive State where
  | initial
  | checkCredentials
  | serverList
  | connecting
  | sendPlayServer
  | ready
  deriving DecidableEq, Repr

inductive Metric where
  | clientConnections
  | serverConnections
  | clientConnectionsAccepted
  | serverConnectionsEstablished
  | serverConnectionsFailed
  | acceptedLogins
  | rejectedLogins
  | malformedLogins
  | clientBytes
  | serverBytes
  deriving DecidableEq, Repr

/-- The entries of the log. -/
inductive Act where
  | checkCredentials (username password : List UInt8)
  | onCheckCredentials (username : List UInt8) (result : Bool)
  | state (s : State)
  | connect (address : SocketAddress)
  | send (peer : Side) (buffer accepted : List UInt8)
  | spliced (peer : Side) (bytes : List UInt8)
  | sendTo (d : Dir) (pipe : Bool) (size : ℕ)
  | receiveFrom (d : Dir) (size : ℕ)
  | received (d : Dir) (result : ReceiveResult)
  | sourceClosed (d : Dir) (taken delivered : List UInt8)
  | shutdownWrite (peer : Side)
  | updateTokenBucket (size : ℕ)
  | metric (m : Metric) (delta : ℤ)
  | removeConnection
  deriving DecidableEq, Repr

/-- The bytes an entry puts on the wire to a peer. -/
def Act.written (peer : Side) : Act → List UInt8
  | .send side _ accepted => if side = peer then accepted else []
  | .spliced side bytes => if side = peer then bytes else []
  | _ => []

/-- All bytes written to a peer. -/
def written (peer : Side) (log : List Act) : List UInt8 := log.flatMap (Act.written peer)

/-- The member `initial_packets`, a buffer of fixed size. -/
structure InitialPackets where
  bytes : List UInt8
  length_eq : bytes.length = initialSize
  deriving DecidableEq

/-- Bytes read into the buffer at position `fill`. -/
def InitialPackets.fillAt (b : InitialPackets) (fill : ℕ) (bytes : List UInt8) : InitialPackets where
  bytes := (b.bytes.take fill ++ bytes ++ b.bytes.drop (fill + bytes.length)).take initialSize
  length_eq := by
    have := b.length_eq
    simp only [List.length_take, List.length_append, List.length_drop]
    omega

/-- The buffer of a new connection; its content is never looked at. -/
def InitialPackets.blank : InitialPackets where
  bytes := List.replicate initialSize 0
  length_eq := List.length_replicate

structure Connection where
  /-- `HostToString(remote_address)` -/
  remoteHost : List UInt8
  /-- the client's accounting record, if there is one -/
  perClient : Option UInt64
  incoming : SocketEvent := {}
  outgoing : SocketEvent := {}
  spliceInOut : Splice UInt8 := {}
  spliceOutIn : Splice UInt8 := {}
  outgoingAddress : SocketAddress := .null
  /-- `connect`, with its timeout in seconds while it is pending -/
  connect : Option ℕ := none
  /-- `timeout`, with its duration in seconds while it is pending -/
  timeout : Option ℕ := none
  cancelPtr : Bool := false
  initialPackets : InitialPackets := .blank
  initialPacketsFill : ℕ := 0
  state : State := .initial
  sendPlayServer : Bool := false
  /-- the kernel's side of the two sockets -/
  client : Inbound := {}
  server : Inbound := {}
  /-- username and password of the check that is queued in the thread pool -/
  job : Option (List UInt8 × List UInt8) := none
  log : List Act := []

/-- How an event handler ends. -/
inductive Result where
  | alive (c : Connection)
  | destroyed (c : Connection)
  | crashed (why : Stop) (c : Connection)

/-- How `Database::CheckCredentials` ends: by an exception, by calling back at once because there is
no database, or by queueing a job. -/
inductive CheckChoice where
  | throws
  | noDatabase
  | queued
  deriving DecidableEq, Repr

/-- How `ConnectSocket::Connect` ends: the connect is pending, or the handler is called at once. -/
inductive ConnectChoice where
  | pending
  | succeeds
  | fails
  deriving DecidableEq, Repr

/-- The answers of one event handler's callees. -/
structure Answers where
  read : ReadChoice := .fails
  reject : SendChoice := .all
  check : CheckChoice := .queued
  sendServerList : SendChoice := .all
  connect : ConnectChoice := .pending
  sendInitial : SendChoice := .all
  readCommand : ReadChoice := .fails
  readLength : ReadChoice := .fails
  discard : List ReadChoice := []
  sendPlayServer : SendChoice := .all
  getNow : GetNow := .create
  receive : SpliceChoice := .again
  sendReady : SpliceChoice := .again
  sendReceived : SpliceChoice := .again

/-- The configuration and the character functions. -/
structure Setup where
  config : Config
  util : CharUtil

namespace Connection

/-! ## Changing one member -/

/-- Append to the log. -/
def emit (c : Connection) (a : Act) : Connection := { c with log := c.log ++ [a] }

/-- Assign `state`. -/
def setState (c : Connection) (s : State) : Connection :=
  { c with state := s, log := c.log ++ [.state s] }

def setTimeout (c : Connection) (t : Option ℕ) : Connection := { c with timeout := t }

def setConnect (c : Connection) (t : Option ℕ) : Connection := { c with connect := t }

def setCancelPtr (c : Connection) (b : Bool) : Connection := { c with cancelPtr := b }

def setJob (c : Connection) (job : Option (List UInt8 × List UInt8)) : Connection :=
  { c with job := job }

def setOutgoing (c : Connection) (s : SocketEvent) : Connection := { c with outgoing := s }

def setOutgoingAddress (c : Connection) (a : SocketAddress) : Connection :=
  { c with outgoingAddress := a }

def setSendPlayServer (c : Connection) : Connection := { c with sendPlayServer := true }

/-- Bytes read into `initial_packets`; the fill counter has 8 bits. -/
def fillInitial (c : Connection) (bytes : List UInt8) : Connection :=
  { c with
    initialPackets := c.initialPackets.fillAt c.initialPacketsFill bytes
    initialPacketsFill := (c.initialPacketsFill + bytes.length) % 256 }

/-- The socket of a peer. -/
def event (c : Connection) : Side → SocketEvent
  | .client => c.incoming
  | .server => c.outgoing

/-- Change the flags of a peer's socket. -/
def mapEvent (c : Connection) (f : SocketEvent → SocketEvent) : Side → Connection
  | .client => { c with incoming := f c.incoming }
  | .server => { c with outgoing := f c.outgoing }

/-- The stream from a peer. -/
def inbound (c : Connection) : Side → Inbound
  | .client => c.client
  | .server => c.server

def setInbound (c : Connection) (s : Inbound) : Side → Connection
  | .client => { c with client := s }
  | .server => { c with server := s }

/-- The `Splice` of a direction. -/
def splice (c : Connection) : Dir → Splice UInt8
  | .inOut => c.spliceInOut
  | .outIn => c.spliceOutIn

def setSplice (c : Connection) (s : Splice UInt8) : Dir → Connection
  | .inOut => { c with spliceInOut := s }
  | .outIn => { c with spliceOutIn := s }

/-! ## Calls with an effect outside -/

/-- `accounting.UpdateTokenBucket()`. -/
def updateTokenBucket (c : Connection) (size : ℕ) : Connection :=
  if c.perClient.isSome then c.emit (.updateTokenBucket size) else c

/-- `Send` to the client or to a game server: the return value is the number of bytes taken, or
negative. -/
def sendTo (c : Connection) (peer : Side) (buffer : List UInt8) (ch : SendChoice) :
    ℤ × Connection :=
  match ch.accepted buffer with
  | none => (-1, c)
  | some bytes => (bytes.length, c.emit (.send peer buffer bytes))

theorem sendTo_of_none (c : Connection) (peer : Side) {buffer : List UInt8} {ch : SendChoice}
    (h : ch.accepted buffer = none) : c.sendTo peer buffer ch = (-1, c) := by
  unfold sendTo
  rw [h]

theorem sendTo_of_some (c : Connection) (peer : Side) {buffer bytes : List UInt8} {ch : SendChoice}
    (h : ch.accepted buffer = some bytes) :
    c.sendTo peer buffer ch = ((bytes.length : ℤ), c.emit (.send peer buffer bytes)) := by
  unfold sendTo
  rw [h]

/-- `Send` either fails without effect or takes some bytes. -/
theorem sendTo_cases (c : Connection) (peer : Side) (buffer : List UInt8) (ch : SendChoice) :
    c.sendTo peer buffer ch = (-1, c) ∨
      ∃ bytes, ch.accepted buffer = some bytes ∧
        c.sendTo peer buffer ch = ((bytes.length : ℤ), c.emit (.send peer buffer bytes)) := by
  cases h : ch.accepted buffer with
  | none => exact .inl (c.sendTo_of_none peer h)
  | some bytes => exact .inr ⟨bytes, rfl, c.sendTo_of_some peer h⟩

end Connection

end UoLogin
