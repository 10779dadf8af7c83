import UoLogin.Connection.Model

set_option autoImplicit false

/-!
# The event handlers of a connection

The functions of `Connection.cxx`, each under its own name. A handler that calls `Destroy()` returns
right after it, so `Destroy()` is the result `destroyed`; the destructor runs on its connection.
-/

namespace UoLogin

namespace Connection

/-- The constructor: `READ_HANGUP` is scheduled for good, the login packets have 5 seconds. -/
def new (remoteHost : List UInt8) (perClient : Option UInt64) : Connection where
  remoteHost := remoteHost
  perClient := perClient
  incoming := { defined := true, read := true, readHangup := true }
  timeout := some 5
  log := [.metric .clientConnections 1, .metric .clientConnectionsAccepted 1]

/-- The counters that the destructor and that of `accounting` bring down. -/
def destructorLog (c : Connection) : List Act :=
  (if c.outgoing.defined then [.metric .serverConnections (-1)] else []) ++
    [.metric .clientConnections (-1)] ++ (if c.perClient.isSome then [.removeConnection] else [])

/-- The destructor and those of the members: the check is cancelled, the sockets are closed, the
pipes go back to the stock or are dropped. -/
def destructor (stock : PipeStock UInt8) (c : Connection) : PipeStock UInt8 × Connection :=
  (c.spliceInOut.destroy (c.spliceOutIn.destroy stock),
    { c with incoming := {}, outgoing := {}, cancelPtr := false, job := none, timeout := none
             connect := none, log := c.log ++ c.destructorLog })

/-! ## Connecting to the game server -/

/-- `SendInitialPackets`: seed, client address and login in one vector. -/
def sendInitialPackets (setup : Setup) (ans : Answers) (c : Connection) : ℤ × Connection :=
  c.sendTo .server (initialPacketsVector setup.config c.remoteHost c.initialPackets.bytes)
    ans.sendInitial

/-- `OnSocketConnectSuccess`. -/
def onSocketConnectSuccess (setup : Setup) (ans : Answers) (c : Connection) : Result :=
  if c.state ≠ .connecting then .crashed (.abort .connectSuccessState) c
  else if c.initialPacketsFill ≠ initialSize then .crashed (.abort .sendInitialFill) c
  else
    let sent := c.sendInitialPackets setup ans
    if sent.1 > 0 then
      let c := (sent.2.emit (.metric .serverConnections 1)).emit
        (.metric .serverConnectionsEstablished 1)
      let c := c.setOutgoing { defined := true, read := true }
      if c.sendPlayServer then .alive (c.setState .sendPlayServer)
      else .alive ((c.mapEvent .scheduleRead .client).setState .ready)
    else .destroyed sent.2

/-- `OnSocketConnectError`. -/
def onSocketConnectError (c : Connection) : Result :=
  if c.state ≠ .connecting then .crashed (.abort .connectErrorState) c
  else .destroyed (c.emit (.metric .serverConnectionsFailed 1))

/-- `connect.Connect()`, which may call its handler before it returns. -/
def connectTo (setup : Setup) (ans : Answers) (address : SocketAddress) (c : Connection) : Result :=
  let c := c.emit (.connect address)
  match ans.connect with
  | .pending => .alive (c.setConnect (some 10))
  | .succeeds => c.onSocketConnectSuccess setup ans
  | .fails => c.onSocketConnectError

/-! ## Login -/

/-- `SendServerList`. -/
def sendServerList (setup : Setup) (ans : Answers) (c : Connection) : Result :=
  if c.initialPacketsFill ≠ initialSize then .crashed (.abort .sendServerListFill) c
  else if setup.config.serverList = [] then .crashed (.abort .sendServerListEmpty) c
  else
    let sent := c.sendTo .client (serverListPacket setup.config.serverList) ans.sendServerList
    if sent.1 < 0 then .destroyed sent.2
    else
      .alive (((sent.2.setState .serverList).mapEvent .scheduleRead .client).setTimeout (some 60))

/-- `ReceivePlayServer`. -/
def receivePlayServer (setup : Setup) (ans : Answers) (c : Connection) : Result :=
  if c.state ≠ .serverList then .crashed (.abort .receivePlayServerState) c
  else if setup.config.serverList = [] then .crashed (.abort .receivePlayServerEmpty) c
  else if c.initialPacketsFill ≠ initialSize then .crashed (.abort .receivePlayServerFill) c
  else
    let read := c.client.readNoWait sizeofPlayServer ans.read
    let c := c.setInbound read.2 .client
    match read.1 with
    | none => .destroyed c
    | some packet =>
      if packet.length ≠ sizeofPlayServer ∨ hasCommand packet .playServer = false then .destroyed c
      else match setup.config.serverList[unpackBE16 (packet.drop 1)]? with
        | none => .destroyed c
        | some server =>
          let c := (c.setOutgoingAddress server.address).mapEvent .cancelOnlyRead .client
          (((c.setTimeout none).setState .connecting).setSendPlayServer).connectTo setup ans
            server.address

/-- `SendAccountLoginReject`, and the `ShutdownWrite` after it when it succeeds. -/
def rejectLogin (ans : Answers) (c : Connection) : Connection :=
  let sent := c.sendTo .client accountLoginRejectPacket ans.reject
  if sent.1 ≥ 0 then sent.2.emit (.shutdownWrite .client) else sent.2

/-- `OnCheckCredentials`. -/
def onCheckCredentials (setup : Setup) (ans : Answers) (username : List UInt8) (result : Bool)
    (c : Connection) : Result :=
  if c.state ≠ .checkCredentials then .crashed (.abort .checkCredentialsState) c
  else
    let c := (c.emit (.onCheckCredentials username result)).setCancelPtr false
    if result = false then
      let c := (c.emit (.metric .rejectedLogins 1)).updateTokenBucket 5
      .destroyed (c.rejectLogin ans)
    else
      let c := (c.updateTokenBucket 1).emit (.metric .acceptedLogins 1)
      if setup.config.serverList ≠ [] then c.sendServerList setup ans
      else
        let c := (c.setState .connecting).mapEvent .scheduleRead .client
        (c.setOutgoingAddress setup.config.gameServer).connectTo setup ans setup.config.gameServer

/-- The call of `Database::CheckCredentials` with its `catch`. -/
def checkCredentials (setup : Setup) (ans : Answers) (username password : List UInt8)
    (c : Connection) : Result :=
  let c := c.emit (.checkCredentials username password)
  match ans.check with
  | .throws => .destroyed ((c.updateTokenBucket 2).rejectLogin ans)
  | .noDatabase => c.onCheckCredentials setup ans username true
  | .queued => .alive ((c.setCancelPtr true).setJob (some (username, password)))

/-- The rest of `ReceiveLoginPackets`, with the buffer full. -/
def loginComplete (setup : Setup) (ans : Answers) (c : Connection) : Result :=
  let c := (c.mapEvent .cancelOnlyRead .client).setTimeout none
  let seed := c.initialPackets.bytes.take sizeofSeed
  let login := c.initialPackets.bytes.drop sizeofSeed
  if hasCommand seed .seed = false ∨ hasCommand login .accountLogin = false then
    .destroyed ((c.emit (.metric .malformedLogins 1)).updateTokenBucket 10)
  else if isValidUsername setup.util (username login) = false then
    .destroyed (((c.emit (.metric .malformedLogins 1)).updateTokenBucket 8).rejectLogin ans)
  else
    (c.setState .checkCredentials).checkCredentials setup ans (username login) (password login)

/-- `ReceiveLoginPackets`. -/
def receiveLoginPackets (setup : Setup) (ans : Answers) (c : Connection) : Result :=
  if c.state ≠ .initial then .crashed (.abort .receiveLoginState) c
  else if ¬ c.initialPacketsFill < initialSize then .crashed (.abort .receiveLoginFill) c
  else
    let read := c.client.readNoWait (initialSize - c.initialPacketsFill) ans.read
    let c := c.setInbound read.2 .client
    match read.1 with
    | none => .destroyed c
    | some bytes =>
      let c := c.fillInitial bytes
      if c.initialPacketsFill < initialSize then .alive c
      else c.loginComplete setup ans

/-! ## The game server's list -/

/-- `Discard`: the answers are those of the reads of the loop; without an answer a read fails. -/
def discard : Inbound → ℕ → List ReadChoice → Bool × Inbound
  | s, 0, _ => (true, s)
  | s, _ + 1, [] => (false, s)
  | s, n + 1, ch :: rest =>
    match s.readNoWait (min 1024 (n + 1)) ch with
    | (none, s) => (false, s)
    | (some bytes, s) => discard s (n + 1 - bytes.length) rest

/-- `ReceiveServerList`. -/
def receiveServerList (ans : Answers) (c : Connection) : Result :=
  let command := c.server.readNoWait 1 ans.readCommand
  let c := c.setInbound command.2 .server
  if command.1 ≠ some [Command.serverList.byte] then .destroyed c
  else
    let length := c.server.readNoWait 2 ans.readLength
    let c := c.setInbound length.2 .server
    match length.1 with
    | none => .destroyed c
    | some bytes =>
      if bytes.length ≠ 2 ∨ unpackBE16 bytes < sizeofServerList then .destroyed c
      else
        let rest := discard c.server (unpackBE16 bytes - 3) ans.discard
        let c := c.setInbound rest.2 .server
        if rest.1 = false then .destroyed c
        else
          let sent := c.sendTo .server playServerPacket ans.sendPlayServer
          if sent.1 < 0 then .destroyed sent.2
          else .alive ((sent.2.mapEvent .scheduleRead .client).setState .ready)

/-! ## The relay -/

/-- `DoSpliceSend` from the source of a direction to its sink. -/
def doSpliceSend (stock : PipeStock UInt8) (c : Connection) (d : Dir) (ch : SpliceChoice) :
    PipeStock UInt8 × Connection × Except Stop Bool :=
  let c := c.emit (.sendTo d (c.splice d).pipe.isSome (c.splice d).size)
  match (c.splice d).sendTo stock ch with
  | .error e => (stock, c, .error e)
  | .ok sent =>
    let c := (c.setSplice sent.splice d).emit (.spliced d.sink sent.moved)
    match sent.result with
    | .ok => (sent.stock, c.mapEvent .cancelOnlyWrite d.sink, .ok true)
    | .partialSend | .socketBlocking =>
      (sent.stock, (c.mapEvent .cancelOnlyRead d.source).mapEvent .scheduleWrite d.sink, .ok true)
    | .error => (sent.stock, c, .ok false)

/-- `if (!DoSpliceSend(...)) { Destroy(); return; }`. -/
def sendOrDestroy (stock : PipeStock UInt8) (c : Connection) (d : Dir) (ch : SpliceChoice) :
    PipeStock UInt8 × Result :=
  match doSpliceSend stock c d ch with
  | (stock, c, .error e) => (stock, .crashed e c)
  | (stock, c, .ok false) => (stock, .destroyed c)
  | (stock, c, .ok true) => (stock, .alive c)

/-- The counter of the bytes that a direction receives. -/
def bytesMetric : Dir → Metric
  | .inOut => .clientBytes
  | .outIn => .serverBytes

/-- The assertion of the `PIPE_FULL` branch. -/
def pipeFullAssertion : Dir → Assertion
  | .inOut => .incomingPipeFull
  | .outIn => .outgoingPipeFull

/-- The `READ` branch of `OnIncomingReady` and of `OnOutgoingReady`. An exception of `ReceiveFrom`
leaves the handler, which is `noexcept`. -/
def receiveReady (stock : PipeStock UInt8) (c : Connection) (d : Dir) (ans : Answers) :
    PipeStock UInt8 × Result :=
  let s := (c.splice d).clearReceived
  let c := (c.setSplice s d).emit (.receiveFrom d s.size)
  match s.receiveFrom stock (c.inbound d.source).queue ans.getNow ans.receive with
  | .error e => (stock, .crashed e c)
  | .ok got =>
    let c := c.setInbound
      { consumed := (c.inbound d.source).consumed ++ got.moved, queue := got.queue } d.source
    let c := (c.setSplice got.splice d).emit (.received d got.result)
    match got.result with
    | .ok =>
      sendOrDestroy got.stock (c.emit (.metric (bytesMetric d) got.splice.receivedBytes)) d
        ans.sendReceived
    | .socketBlocking => (got.stock, .alive c)
    | .socketClosed =>
      let c := c.emit (.sourceClosed d got.splice.taken got.splice.delivered)
      (got.stock, .destroyed (c.emit (.shutdownWrite d.sink)))
    | .pipeFull =>
      if (c.event d.sink).write = false then (got.stock, .crashed (.abort (pipeFullAssertion d)) c)
      else (got.stock, .alive (c.mapEvent .cancelOnlyRead d.source))
    | .error => (got.stock, .destroyed c)

/-- The `WRITE` branch, then the `READ` branch, of the handler of one peer's socket. -/
def relayReady (stock : PipeStock UInt8) (c : Connection) (side : Side) (events : Events)
    (ans : Answers) : PipeStock UInt8 × Result :=
  let sent := if events.write then sendOrDestroy stock c side.into ans.sendReady else (stock, .alive c)
  match sent with
  | (stock, .alive c) =>
    if events.read then receiveReady stock c side.outOf ans else (stock, .alive c)
  | (stock, r) => (stock, r)

/-! ## The callbacks -/

/-- `OnIncomingReady`. -/
def onIncomingReady (setup : Setup) (stock : PipeStock UInt8) (c : Connection) (events : Events)
    (ans : Answers) : PipeStock UInt8 × Result :=
  if events.dead then
    (stock, .destroyed (if c.state = .initial then c.updateTokenBucket 4 else c))
  else if c.connect.isSome then (stock, .crashed (.abort .incomingConnectPending) c)
  else if c.state = .initial then
    if events.read = false then (stock, .crashed (.abort .incomingInitialRead) c)
    else (stock, c.receiveLoginPackets setup ans)
  else if c.state = .serverList then
    if events.read = false then (stock, .crashed (.abort .incomingServerListRead) c)
    else (stock, c.receivePlayServer setup ans)
  else relayReady stock c .client events ans

/-- `OnOutgoingReady`. -/
def onOutgoingReady (stock : PipeStock UInt8) (c : Connection) (events : Events) (ans : Answers) :
    PipeStock UInt8 × Result :=
  if c.incoming.defined = false then (stock, .crashed (.abort .outgoingIncomingDefined) c)
  else if c.connect.isSome then (stock, .crashed (.abort .outgoingConnectPending) c)
  else if events.dead then (stock, .destroyed (c.updateTokenBucket 5))
  else if c.state = .sendPlayServer then (stock, c.receiveServerList ans)
  else if c.state ≠ .ready then (stock, .crashed (.abort .outgoingState) c)
  else relayReady stock c .server events ans

/-- `OnTimeout`. -/
def onTimeout (c : Connection) : Result := .destroyed (c.updateTokenBucket 7)

/-- The callbacks that reach a connection. -/
inductive Event where
  | incomingReady (events : Events)
  | outgoingReady (events : Events)
  | timeout
  | connectSuccess
  | connectError
  | checkDone (result : Bool)
  deriving DecidableEq, Repr

/-- Call back, if the library may do so now: socket flags only as they are scheduled, a timer and a
connect only while they are pending, and `Done()` of a job once. -/
def dispatch (setup : Setup) (stock : PipeStock UInt8) (c : Connection) (ans : Answers) :
    Event → Option (PipeStock UInt8 × Result)
  | .incomingReady events =>
    if c.incoming.dispatches events then some (c.onIncomingReady setup stock events ans) else none
  | .outgoingReady events =>
    if c.outgoing.dispatches events then some (c.onOutgoingReady stock events ans) else none
  | .timeout =>
    if c.timeout.isSome then some (stock, (c.setTimeout none).onTimeout) else none
  | .connectSuccess =>
    if c.connect.isSome then
      some (stock, (c.setConnect none).onSocketConnectSuccess setup ans)
    else none
  | .connectError =>
    if c.connect.isSome then some (stock, (c.setConnect none).onSocketConnectError) else none
  | .checkDone result =>
    match c.job with
    | none => none
    | some job => some (stock, (c.setJob none).onCheckCredentials setup ans job.1 result)

end Connection

end UoLogin
