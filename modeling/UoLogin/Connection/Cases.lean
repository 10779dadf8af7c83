import UoLogin.Connection.Handlers

set_option autoImplicit false

/-!
# What the handlers can do

For every handler, the ways it can end for a connection that meets its assertions, whatever the
kernel and the libraries answer. Each is a relation between the connection and the `Result`, and one
theorem says that the handler stays inside it; the proofs about connections go by cases on these
relations and do not unfold the handlers.

* `readNoWait_cases`, `accepted_cases`: one read, one send;
* `Establishes`, `Connects`: connecting to the game server;
* `Accepts`, `Judges`, `Completes`, `LogsIn`: the login, up to the verdict and beyond;
* `Plays`, `Lists`: the two packets of the server list mode; the loop of `Discard` reads exactly what
  it was asked for, or fails (`discard_cases`);
* `Sends`, `Receives`: one direction of the relay.
-/

namespace UoLogin

/-! ## One read, one send -/

/-- The inbound stream after `bytes` were read. -/
def Inbound.advance (s : Inbound) (bytes rest : List UInt8) : Inbound :=
  { consumed := s.consumed ++ bytes, queue := rest }

theorem Inbound.stream_advance {s : Inbound} {bytes rest : List UInt8} (h : s.queue = bytes ++ rest) :
    (s.advance bytes rest).stream = s.stream := by
  unfold Inbound.stream advance
  rw [h, List.append_assoc]

/-- A read returns nothing, or a non-empty front of the queue that fits the buffer. -/
theorem Inbound.readNoWait_cases (s : Inbound) (max : ℕ) (ch : ReadChoice) :
    s.readNoWait max ch = (none, s) ∨
      ∃ bytes rest, bytes ≠ [] ∧ bytes.length ≤ max ∧ s.queue = bytes ++ rest ∧
        s.readNoWait max ch = (some bytes, s.advance bytes rest) := by
  cases ch with
  | fails => exact .inl rfl
  | upTo n =>
      simp only [readNoWait]
      split
      · exact .inl rfl
      · rename_i hne
        refine .inr ⟨_, _, ?_, ?_, (List.take_append_drop (min (n + 1) max) s.queue).symm, rfl⟩
        · intro he
          rw [he] at hne
          exact hne rfl
        · rw [List.length_take]
          omega

/-- `Send` takes a prefix of the buffer, and something of a non-empty one. -/
theorem SendChoice.accepted_cases {buffer bytes : List UInt8} {ch : SendChoice}
    (h : ch.accepted buffer = some bytes) : bytes <+: buffer ∧ (buffer ≠ [] → bytes ≠ []) := by
  cases ch with
  | fails => cases h
  | all =>
      cases h
      exact ⟨List.prefix_rfl, id⟩
  | short n =>
      cases h
      refine ⟨List.take_prefix _ _, fun hb ht => hb ?_⟩
      rcases List.take_eq_nil_iff.mp ht with hn | hb'
      · cases hn
      · exact hb'

/-! ## Bookkeeping -/

/-- Metrics, accounting and shutdowns. -/
def Act.quiet : Act → Bool
  | .metric _ _ | .updateTokenBucket _ | .shutdownWrite _ | .removeConnection => true
  | _ => false

/-- Only quiet entries. -/
def Quiet (acts : List Act) : Prop := ∀ a ∈ acts, a.quiet = true

theorem Quiet.append {as bs : List Act} (ha : Quiet as) (hb : Quiet bs) : Quiet (as ++ bs) := by
  intro a h
  rcases List.mem_append.mp h with h | h
  · exact ha a h
  · exact hb a h

theorem quiet_nil : Quiet [] := by
  intro a h
  cases h

theorem quiet_singleton {a : Act} (h : a.quiet = true) : Quiet [a] := by
  intro b hb
  rw [List.mem_singleton.mp hb]
  exact h

/-- What the attempt to send an `AccountLoginReject` leaves in the log. -/
inductive Rejection : List Act → Prop
  | skipped : Rejection []
  | sent {bytes : List UInt8} (h : bytes <+: accountLoginRejectPacket) :
      Rejection [.send .client accountLoginRejectPacket bytes, .shutdownWrite .client]

namespace Connection

variable {setup : Setup} {ans : Answers} {c : Connection}

def emits (c : Connection) (acts : List Act) : Connection := { c with log := c.log ++ acts }

theorem emits_nil (c : Connection) : c.emits [] = c := by
  unfold emits
  rw [List.append_nil]

theorem emits_emits (c : Connection) (as bs : List Act) :
    (c.emits as).emits bs = c.emits (as ++ bs) := by
  unfold emits
  simp only
  rw [List.append_assoc]

/-- What a charge of the client leaves in the log. -/
def charge (c : Connection) (size : ℕ) : List Act :=
  if c.perClient.isSome then [.updateTokenBucket size] else []

theorem quiet_charge (c : Connection) (size : ℕ) : Quiet (c.charge size) := by
  unfold charge
  split
  · exact quiet_singleton rfl
  · exact quiet_nil

theorem updateTokenBucket_eq (c : Connection) (size : ℕ) :
    c.updateTokenBucket size = c.emits (c.charge size) := by
  unfold updateTokenBucket charge
  split
  · rfl
  · exact (c.emits_nil).symm

/-- The destructor only does bookkeeping. -/
theorem quiet_destructorLog (c : Connection) : Quiet c.destructorLog := by
  refine Quiet.append (Quiet.append ?_ (quiet_singleton rfl)) ?_
  · split
    · exact quiet_singleton rfl
    · exact quiet_nil
  · split
    · exact quiet_singleton rfl
    · exact quiet_nil

theorem rejectLogin_cases (c : Connection) (ans : Answers) :
    ∃ acts, Rejection acts ∧ c.rejectLogin ans = c.emits acts := by
  unfold rejectLogin
  rcases sendTo_cases c .client accountLoginRejectPacket ans.reject with h | ⟨bytes, ha, h⟩
  · rw [h]
    exact ⟨[], .skipped, (c.emits_nil).symm⟩
  · have hpos : (bytes.length : ℤ) ≥ 0 := by omega
    rw [h]
    simp only [if_pos hpos]
    refine ⟨_, .sent (SendChoice.accepted_cases ha).1, ?_⟩
    exact emits_emits c [_] [_]

/-! ## Connecting -/

/-- The vector of the initial packets of this connection. -/
def vector (setup : Setup) (c : Connection) : List UInt8 :=
  initialPacketsVector setup.config c.remoteHost c.initialPackets.bytes

theorem vector_ne_nil (setup : Setup) (c : Connection) : c.vector setup ≠ [] := by
  intro h
  have hlen := congrArg List.length h
  have := c.initialPackets.length_eq
  simp only [vector, initialPacketsVector, List.length_append, List.length_take, List.length_drop,
    List.length_nil] at hlen
  unfold sizeofSeed initialSize at *
  omega

/-- The game server took `bytes` of the initial packets. -/
def connected (setup : Setup) (bytes : List UInt8) (c : Connection) : Connection :=
  (c.emits [.send .server (c.vector setup) bytes, .metric .serverConnections 1,
    .metric .serverConnectionsEstablished 1]).setOutgoing { defined := true, read := true }

inductive Establishes (setup : Setup) (c : Connection) : Result → Prop
  | failed : Establishes setup c (.destroyed c)
  | sendPlayServer {bytes : List UInt8} (hb : bytes ≠ []) (hp : c.sendPlayServer = true) :
      Establishes setup c (.alive ((c.connected setup bytes).setState .sendPlayServer))
  | ready {bytes : List UInt8} (hb : bytes ≠ []) (hp : c.sendPlayServer = false) :
      Establishes setup c
        (.alive (((c.connected setup bytes).mapEvent .scheduleRead .client).setState .ready))

/-- The initial packets could not be sent. -/
theorem onSocketConnectSuccess_of_none (hs : c.state = .connecting)
    (hf : c.initialPacketsFill = initialSize)
    (ha : ans.sendInitial.accepted (c.vector setup) = none) :
    c.onSocketConnectSuccess setup ans = .destroyed c := by
  have h : c.sendInitialPackets setup ans = (-1, c) := sendTo_of_none c .server ha
  unfold onSocketConnectSuccess
  rw [if_neg (not_not.mpr hs), if_neg (not_not.mpr hf), h]
  rfl

/-- The game server took some of the initial packets. -/
theorem onSocketConnectSuccess_of_some (hs : c.state = .connecting)
    (hf : c.initialPacketsFill = initialSize) {bytes : List UInt8}
    (ha : ans.sendInitial.accepted (c.vector setup) = some bytes) :
    c.onSocketConnectSuccess setup ans =
      if c.sendPlayServer = true then .alive ((c.connected setup bytes).setState .sendPlayServer)
      else .alive (((c.connected setup bytes).mapEvent .scheduleRead .client).setState .ready) := by
  have h : c.sendInitialPackets setup ans =
      ((bytes.length : ℤ), c.emit (.send .server (c.vector setup) bytes)) := sendTo_of_some c .server ha
  have hpos : (bytes.length : ℤ) > 0 := by
    have := List.length_pos_iff.mpr ((SendChoice.accepted_cases ha).2 (vector_ne_nil setup c))
    omega
  have hc : ((c.emit (.send .server (c.vector setup) bytes)).emit (.metric .serverConnections 1)).emit
      (.metric .serverConnectionsEstablished 1) = c.emits [.send .server (c.vector setup) bytes,
        .metric .serverConnections 1, .metric .serverConnectionsEstablished 1] :=
    (emits_emits (c.emits [_]) [_] [_]).trans (emits_emits c [_] _)
  unfold onSocketConnectSuccess
  rw [if_neg (not_not.mpr hs), if_neg (not_not.mpr hf), h]
  simp only [if_pos hpos]
  rw [hc]
  rfl

theorem onSocketConnectSuccess_establishes (ans : Answers) (hs : c.state = .connecting)
    (hf : c.initialPacketsFill = initialSize) :
    Establishes setup c (c.onSocketConnectSuccess setup ans) := by
  cases ha : ans.sendInitial.accepted (c.vector setup) with
  | none =>
      rw [onSocketConnectSuccess_of_none hs hf ha]
      exact .failed
  | some bytes =>
      have hne := (SendChoice.accepted_cases ha).2 (vector_ne_nil setup c)
      rw [onSocketConnectSuccess_of_some hs hf ha]
      split
      · rename_i hp
        exact .sendPlayServer hne hp
      · rename_i hp
        exact .ready hne ((Bool.not_eq_true _).mp hp)

inductive Connects (setup : Setup) (address : SocketAddress) (c : Connection) : Result → Prop
  | pending :
      Connects setup address c (.alive ((c.emit (.connect address)).setConnect (some 10)))
  | failed :
      Connects setup address c
        (.destroyed ((c.emit (.connect address)).emit (.metric .serverConnectionsFailed 1)))
  | now {r : Result} (h : Establishes setup (c.emit (.connect address)) r) :
      Connects setup address c r

theorem onSocketConnectError_eq (hs : c.state = .connecting) :
    c.onSocketConnectError = .destroyed (c.emit (.metric .serverConnectionsFailed 1)) := by
  unfold onSocketConnectError
  rw [if_neg (not_not.mpr hs)]

theorem connectTo_connects (ans : Answers) (address : SocketAddress) (hs : c.state = .connecting)
    (hf : c.initialPacketsFill = initialSize) :
    Connects setup address c (c.connectTo setup ans address) := by
  unfold connectTo
  cases ans.connect with
  | pending => exact .pending
  | succeeds => exact .now (onSocketConnectSuccess_establishes ans hs hf)
  | fails =>
      change Connects setup address c (c.emit (.connect address)).onSocketConnectError
      rw [onSocketConnectError_eq (c := c.emit (.connect address)) hs]
      exact .failed

/-! ## The login -/

/-- The server list went to the client, which took `bytes` of it. -/
def listed (setup : Setup) (bytes : List UInt8) (c : Connection) : Connection :=
  (((c.emit (.send .client (serverListPacket setup.config.serverList) bytes)).setState
    .serverList).mapEvent .scheduleRead .client).setTimeout (some 60)

/-- Without a server list: on the way to the only game server. -/
def direct (setup : Setup) (c : Connection) : Connection :=
  ((c.setState .connecting).mapEvent .scheduleRead .client).setOutgoingAddress setup.config.gameServer

/-- The part of `OnCheckCredentials` after the books are done. -/
inductive Accepts (setup : Setup) (c : Connection) : Result → Prop
  | failed (hl : setup.config.serverList ≠ []) : Accepts setup c (.destroyed c)
  | listed (hl : setup.config.serverList ≠ []) {bytes : List UInt8} :
      Accepts setup c (.alive (c.listed setup bytes))
  | direct (hl : setup.config.serverList = []) {r : Result}
      (h : Connects setup setup.config.gameServer (c.direct setup) r) : Accepts setup c r

/-- The server list could not be sent. -/
theorem sendServerList_of_none (hf : c.initialPacketsFill = initialSize)
    (hl : setup.config.serverList ≠ [])
    (ha : ans.sendServerList.accepted (serverListPacket setup.config.serverList) = none) :
    c.sendServerList setup ans = .destroyed c := by
  unfold sendServerList
  rw [if_neg (not_not.mpr hf), if_neg hl, sendTo_of_none c .client ha]
  rfl

/-- The client took some of the server list. -/
theorem sendServerList_of_some (hf : c.initialPacketsFill = initialSize)
    (hl : setup.config.serverList ≠ []) {bytes : List UInt8}
    (ha : ans.sendServerList.accepted (serverListPacket setup.config.serverList) = some bytes) :
    c.sendServerList setup ans = .alive (c.listed setup bytes) := by
  have hpos : ¬ (bytes.length : ℤ) < 0 := by omega
  unfold sendServerList
  rw [if_neg (not_not.mpr hf), if_neg hl, sendTo_of_some c .client ha]
  simp only [if_neg hpos]
  rfl

theorem sendServerList_accepts (ans : Answers) (hf : c.initialPacketsFill = initialSize)
    (hl : setup.config.serverList ≠ []) : Accepts setup c (c.sendServerList setup ans) := by
  cases ha : ans.sendServerList.accepted (serverListPacket setup.config.serverList) with
  | none =>
      rw [sendServerList_of_none hf hl ha]
      exact .failed hl
  | some bytes =>
      rw [sendServerList_of_some hf hl ha]
      exact .listed hl

/-- The verdict is there. -/
def judged (username : List UInt8) (result : Bool) (c : Connection) : Connection :=
  (c.emit (.onCheckCredentials username result)).setCancelPtr false

inductive Judges (setup : Setup) (username : List UInt8) (c : Connection) : Bool → Result → Prop
  | rejected {quiet tail : List Act} (hq : Quiet quiet) (ht : Rejection tail)
      (he : quiet = .metric .rejectedLogins 1 :: c.charge 5) :
      Judges setup username c false (.destroyed ((c.judged username false).emits (quiet ++ tail)))
  | accepted {quiet : List Act} (hq : Quiet quiet) {r : Result}
      (h : Accepts setup ((c.judged username true).emits quiet) r)
      (he : quiet = c.charge 1 ++ [.metric .acceptedLogins 1]) : Judges setup username c true r

theorem initialPacketsFill_direct (setup : Setup) (c : Connection) :
    (c.direct setup).initialPacketsFill = c.initialPacketsFill := rfl

theorem initialPacketsFill_emits (c : Connection) (acts : List Act) :
    (c.emits acts).initialPacketsFill = c.initialPacketsFill := rfl

theorem initialPacketsFill_judged (username : List UInt8) (result : Bool) (c : Connection) :
    (c.judged username result).initialPacketsFill = c.initialPacketsFill := rfl

theorem onCheckCredentials_judges (ans : Answers) (username : List UInt8) (result : Bool)
    (hs : c.state = .checkCredentials) (hf : c.initialPacketsFill = initialSize) :
    Judges setup username c result (c.onCheckCredentials setup ans username result) := by
  unfold onCheckCredentials
  rw [if_neg (not_not.mpr hs)]
  cases result with
  | false =>
      rw [if_pos rfl]
      obtain ⟨tail, ht, he⟩ := rejectLogin_cases
        (((c.judged username false).emit (.metric .rejectedLogins 1)).updateTokenBucket 5) ans
      have hc : (((c.judged username false).emit (.metric .rejectedLogins 1)).updateTokenBucket
          5).rejectLogin ans =
            (c.judged username false).emits ((.metric .rejectedLogins 1 :: c.charge 5) ++ tail) := by
        rw [he, updateTokenBucket_eq]
        exact (emits_emits _ _ _).trans (emits_emits _ [_] _)
      change Judges setup username c false (.destroyed ((((c.judged username false).emit
        (.metric .rejectedLogins 1)).updateTokenBucket 5).rejectLogin ans))
      rw [hc]
      exact .rejected (Quiet.append (quiet_singleton rfl) (quiet_charge c 5)) ht rfl
  | true =>
      rw [if_neg (by decide)]
      have hc : ((c.judged username true).updateTokenBucket 1).emit (.metric .acceptedLogins 1) =
          (c.judged username true).emits (c.charge 1 ++ [.metric .acceptedLogins 1]) := by
        rw [updateTokenBucket_eq]
        exact emits_emits _ _ [_]
      have hquiet := (quiet_charge c 1).append (quiet_singleton (a := .metric .acceptedLogins 1) rfl)
      change Judges setup username c true (if setup.config.serverList ≠ [] then
        (((c.judged username true).updateTokenBucket 1).emit (.metric .acceptedLogins 1)).sendServerList
          setup ans
        else ((((c.judged username true).updateTokenBucket 1).emit (.metric .acceptedLogins 1)).direct
          setup).connectTo setup ans setup.config.gameServer)
      rw [hc]
      split
      · rename_i hl
        exact .accepted hquiet (sendServerList_accepts ans hf hl) rfl
      · rename_i hl
        refine .accepted hquiet (.direct (not_not.mp hl) (connectTo_connects ans _ rfl ?_)) rfl
        rw [initialPacketsFill_direct, initialPacketsFill_emits, initialPacketsFill_judged, hf]

/-- The login packets that are not refused at sight. -/
structure WellFormed (util : CharUtil) (packets : List UInt8) : Prop where
  seed : hasCommand (packets.take sizeofSeed) .seed = true
  accountLogin : hasCommand (packets.drop sizeofSeed) .accountLogin = true
  username : isValidUsername util (username (packets.drop sizeofSeed)) = true

/-- The part of the buffer that holds the `AccountLogin`. -/
def login (c : Connection) : List UInt8 := c.initialPackets.bytes.drop sizeofSeed

/-- The login packets are complete. -/
def complete (c : Connection) : Connection := (c.mapEvent .cancelOnlyRead .client).setTimeout none

/-- The check of the credentials has begun. -/
def checking (c : Connection) : Connection :=
  (c.complete.setState .checkCredentials).emit (.checkCredentials (username c.login) (password c.login))

/-- The end of `ReceiveLoginPackets`, from the last byte of the login on. -/
inductive Completes (setup : Setup) (c : Connection) : Result → Prop
  | malformed {quiet tail : List Act} (hq : Quiet quiet) (ht : Rejection tail) {size : ℕ}
      (hs : 8 ≤ size) (he : quiet = .metric .malformedLogins 1 :: c.charge size) :
      Completes setup c (.destroyed (c.complete.emits (quiet ++ tail)))
  | throws (hw : WellFormed setup.util c.initialPackets.bytes) {quiet tail : List Act}
      (hq : Quiet quiet) (ht : Rejection tail) (he : quiet = c.charge 2) :
      Completes setup c (.destroyed (c.checking.emits (quiet ++ tail)))
  | noDatabase (hw : WellFormed setup.util c.initialPackets.bytes) {r : Result}
      (h : Judges setup (username c.login) c.checking true r) : Completes setup c r
  | queued (hw : WellFormed setup.util c.initialPackets.bytes) :
      Completes setup c (.alive ((c.checking.setCancelPtr true).setJob
        (some (username c.login, password c.login))))

/-- Accounting and an `AccountLoginReject`. -/
theorem refuse_cases (c : Connection) (ans : Answers) (size : ℕ) :
    ∃ tail, Rejection tail ∧
      (c.updateTokenBucket size).rejectLogin ans = c.emits (c.charge size ++ tail) := by
  obtain ⟨tail, ht, he⟩ := rejectLogin_cases (c.updateTokenBucket size) ans
  refine ⟨tail, ht, ?_⟩
  rw [he, updateTokenBucket_eq, emits_emits]

theorem checkCredentials_completes (ans : Answers)
    (hw : WellFormed setup.util c.initialPackets.bytes) (hf : c.initialPacketsFill = initialSize) :
    Completes setup c ((c.complete.setState .checkCredentials).checkCredentials setup ans
      (username c.login) (password c.login)) := by
  unfold checkCredentials
  cases ans.check with
  | throws =>
      obtain ⟨tail, ht, he⟩ := refuse_cases c.checking ans 2
      change Completes setup c (.destroyed ((c.checking.updateTokenBucket 2).rejectLogin ans))
      rw [he]
      exact .throws hw (quiet_charge c 2) ht rfl
  | noDatabase => exact .noDatabase hw (onCheckCredentials_judges ans _ true rfl hf)
  | queued => exact .queued hw

theorem loginComplete_eq (setup : Setup) (ans : Answers) (c : Connection) :
    c.loginComplete setup ans =
      if hasCommand (c.initialPackets.bytes.take sizeofSeed) .seed = false ∨
          hasCommand c.login .accountLogin = false then
        .destroyed ((c.complete.emit (.metric .malformedLogins 1)).updateTokenBucket 10)
      else if isValidUsername setup.util (username c.login) = false then
        .destroyed (((c.complete.emit (.metric .malformedLogins 1)).updateTokenBucket 8).rejectLogin ans)
      else (c.complete.setState .checkCredentials).checkCredentials setup ans (username c.login)
        (password c.login) := rfl

theorem loginComplete_completes (ans : Answers) (hf : c.initialPacketsFill = initialSize) :
    Completes setup c (c.loginComplete setup ans) := by
  rw [loginComplete_eq]
  have hm : ∀ size, Quiet (.metric .malformedLogins 1 :: c.charge size) := fun size =>
    Quiet.append (quiet_singleton rfl) (quiet_charge c size)
  split
  · have hc : Completes setup c (.destroyed (c.complete.emits
        ((.metric .malformedLogins 1 :: c.charge 10) ++ []))) :=
      .malformed (hm 10) .skipped (by decide) rfl
    rw [List.append_nil] at hc
    rw [updateTokenBucket_eq]
    exact (emits_emits c.complete [_] (c.charge 10)).symm ▸ hc
  · rename_i hcmd
    split
    · obtain ⟨tail, ht, he⟩ := refuse_cases (c.complete.emit (.metric .malformedLogins 1)) ans 8
      have hc : Completes setup c (.destroyed (c.complete.emits
          ((.metric .malformedLogins 1 :: c.charge 8) ++ tail))) :=
        .malformed (hm 8) ht (by decide) rfl
      rw [he]
      exact (emits_emits c.complete [_] (c.charge 8 ++ tail)).symm ▸ hc
    · rename_i hname
      obtain ⟨hseed, hlogin⟩ := not_or.mp hcmd
      exact checkCredentials_completes ans ⟨(Bool.not_eq_false _).mp hseed,
        (Bool.not_eq_false _).mp hlogin, (Bool.not_eq_false _).mp hname⟩ hf

/-- `bytes` of the login were read. -/
def filled (bytes rest : List UInt8) (c : Connection) : Connection :=
  (c.setInbound (c.client.advance bytes rest) .client).fillInitial bytes

theorem initialPacketsFill_filled {bytes : List UInt8} (rest : List UInt8)
    (h : c.initialPacketsFill + bytes.length ≤ initialSize) :
    (c.filled bytes rest).initialPacketsFill = c.initialPacketsFill + bytes.length := by
  refine Nat.mod_eq_of_lt ?_
  change c.initialPacketsFill + bytes.length < 256
  unfold initialSize at h
  omega

/-- Bytes that fit are behind those that were there before. -/
theorem take_fillAt (b : InitialPackets) {fill : ℕ} {bytes : List UInt8}
    (h : fill + bytes.length ≤ initialSize) :
    (b.fillAt fill bytes).bytes.take (fill + bytes.length) = b.bytes.take fill ++ bytes := by
  have hlen : (b.bytes.take fill ++ bytes).length = fill + bytes.length := by
    rw [List.length_append, List.length_take, b.length_eq, Nat.min_eq_left (by omega)]
  change ((b.bytes.take fill ++ bytes ++ b.bytes.drop (fill + bytes.length)).take initialSize).take _ = _
  rw [List.take_take, Nat.min_eq_left h, ← hlen]
  exact List.take_left

theorem bytes_filled {bytes : List UInt8} (rest : List UInt8)
    (h : c.initialPacketsFill + bytes.length = initialSize) :
    (c.filled bytes rest).initialPackets.bytes =
      c.initialPackets.bytes.take c.initialPacketsFill ++ bytes := by
  have htake := take_fillAt c.initialPackets (Nat.le_of_eq h)
  rw [h, ← (c.initialPackets.fillAt c.initialPacketsFill bytes).length_eq, List.take_length] at htake
  exact htake

inductive LogsIn (setup : Setup) (c : Connection) : Result → Prop
  | failed : LogsIn setup c (.destroyed c)
  | short {bytes rest : List UInt8} (hq : c.client.queue = bytes ++ rest)
      (hlt : c.initialPacketsFill + bytes.length < initialSize) :
      LogsIn setup c (.alive (c.filled bytes rest))
  | complete {bytes rest : List UInt8} (hq : c.client.queue = bytes ++ rest)
      (heq : c.initialPacketsFill + bytes.length = initialSize) {r : Result}
      (h : Completes setup (c.filled bytes rest) r) : LogsIn setup c r

/-- A read that returns something. -/
theorem receiveLoginPackets_read {bytes rest : List UInt8} (hs : c.state = .initial)
    (hf : c.initialPacketsFill < initialSize)
    (hread : c.client.readNoWait (initialSize - c.initialPacketsFill) ans.read =
      (some bytes, c.client.advance bytes rest)) :
    c.receiveLoginPackets setup ans =
      if (c.filled bytes rest).initialPacketsFill < initialSize then .alive (c.filled bytes rest)
      else (c.filled bytes rest).loginComplete setup ans := by
  unfold receiveLoginPackets
  rw [if_neg (not_not.mpr hs), if_neg (not_not.mpr hf), hread]
  rfl

theorem receiveLoginPackets_logsIn (ans : Answers) (hs : c.state = .initial)
    (hf : c.initialPacketsFill < initialSize) :
    LogsIn setup c (c.receiveLoginPackets setup ans) := by
  rcases c.client.readNoWait_cases (initialSize - c.initialPacketsFill) ans.read with
    h | ⟨bytes, rest, hne, hlen, hq, h⟩
  · unfold receiveLoginPackets
    rw [if_neg (not_not.mpr hs), if_neg (not_not.mpr hf), h]
    exact .failed
  · have hfits : c.initialPacketsFill + bytes.length ≤ initialSize := by omega
    have hfill := initialPacketsFill_filled rest hfits
    rw [receiveLoginPackets_read hs hf h]
    split
    · rename_i hlt
      exact .short hq (hfill ▸ hlt)
    · rename_i hlt
      rw [hfill] at hlt
      have heq : c.initialPacketsFill + bytes.length = initialSize := by omega
      exact .complete hq heq (loginComplete_completes ans (hfill.trans heq))

/-- A read that leaves the login packets incomplete. -/
theorem receiveLoginPackets_incomplete {bytes rest : List UInt8} (hs : c.state = .initial)
    (hf : c.initialPacketsFill < initialSize)
    (hread : c.client.readNoWait (initialSize - c.initialPacketsFill) ans.read =
      (some bytes, c.client.advance bytes rest))
    (hlt : c.initialPacketsFill + bytes.length < initialSize) :
    c.receiveLoginPackets setup ans = .alive (c.filled bytes rest) := by
  rw [receiveLoginPackets_read hs hf hread, if_pos]
  rw [initialPacketsFill_filled rest (Nat.le_of_lt hlt)]
  exact hlt

/-- A read that completes the login packets. -/
theorem receiveLoginPackets_complete {bytes rest : List UInt8} (hs : c.state = .initial)
    (hf : c.initialPacketsFill < initialSize)
    (hread : c.client.readNoWait (initialSize - c.initialPacketsFill) ans.read =
      (some bytes, c.client.advance bytes rest))
    (heq : c.initialPacketsFill + bytes.length = initialSize) :
    c.receiveLoginPackets setup ans = (c.filled bytes rest).loginComplete setup ans := by
  rw [receiveLoginPackets_read hs hf hread, if_neg]
  rw [initialPacketsFill_filled rest (Nat.le_of_eq heq), heq]
  exact Nat.lt_irrefl _

/-! ## The server list mode -/

/-- The client has chosen a game server. -/
def chosen (packet rest : List UInt8) (server : GameServerConfig) (c : Connection) : Connection :=
  (((((c.setInbound (c.client.advance packet rest) .client).setOutgoingAddress
    server.address).mapEvent .cancelOnlyRead .client).setTimeout none).setState
    .connecting).setSendPlayServer

inductive Plays (setup : Setup) (c : Connection) : Result → Prop
  | failed {s : Inbound} (h : s.stream = c.client.stream) :
      Plays setup c (.destroyed (c.setInbound s .client))
  | connects {packet rest : List UInt8} {server : GameServerConfig}
      (hq : c.client.queue = packet ++ rest) (hlen : packet.length = 3)
      (hs : server ∈ setup.config.serverList) {r : Result}
      (h : Connects setup server.address (c.chosen packet rest server) r) : Plays setup c r

theorem receivePlayServer_plays (ans : Answers) (hs : c.state = .serverList)
    (hl : setup.config.serverList ≠ []) (hf : c.initialPacketsFill = initialSize) :
    Plays setup c (c.receivePlayServer setup ans) := by
  unfold receivePlayServer
  rw [if_neg (not_not.mpr hs), if_neg hl, if_neg (not_not.mpr hf)]
  rcases c.client.readNoWait_cases sizeofPlayServer ans.read with
    h | ⟨packet, rest, hne, hlen, hq, h⟩
  · rw [h]
    exact .failed rfl
  · rw [h]
    have hstream := Inbound.stream_advance hq
    simp only
    split
    · exact .failed hstream
    · rename_i hpacket
      split
      · exact .failed hstream
      · rename_i server hserver
        refine .connects hq ?_ (List.mem_of_getElem? hserver) (connectTo_connects ans _ rfl hf)
        exact not_not.mp (not_or.mp hpacket).1

/-- The loop of `Discard` takes exactly `n` bytes off the stream, or fails. -/
theorem discard_cases (s : Inbound) (n : ℕ) (choices : List ReadChoice) :
    (∃ s', s'.stream = s.stream ∧ discard s n choices = (false, s')) ∨
      ∃ bytes rest, bytes.length = n ∧ s.queue = bytes ++ rest ∧
        discard s n choices = (true, s.advance bytes rest) := by
  induction choices generalizing s n with
  | nil =>
      cases n with
      | zero =>
          refine .inr ⟨[], s.queue, rfl, rfl, ?_⟩
          simp only [discard, Inbound.advance, List.append_nil]
      | succ n => exact .inl ⟨s, rfl, rfl⟩
  | cons ch choices ih =>
      cases n with
      | zero =>
          refine .inr ⟨[], s.queue, rfl, rfl, ?_⟩
          simp only [discard, Inbound.advance, List.append_nil]
      | succ n =>
          rw [discard]
          rcases s.readNoWait_cases (min 1024 (n + 1)) ch with h | ⟨bytes, rest, hne, hlen, hq, h⟩
          · rw [h]
            exact .inl ⟨s, rfl, rfl⟩
          · rw [h]
            simp only
            have hstream := Inbound.stream_advance hq
            rcases ih (s.advance bytes rest) (n + 1 - bytes.length) with
              ⟨s', hs', h'⟩ | ⟨more, rest', hmore, hq', h'⟩
            · exact .inl ⟨s', hs'.trans hstream, h'⟩
            · refine .inr ⟨bytes ++ more, rest', ?_, ?_, ?_⟩
              · rw [List.length_append]
                omega
              · change rest = more ++ rest' at hq'
                rw [hq, hq', List.append_assoc]
              · rw [h']
                simp only [Inbound.advance, List.append_assoc]

/-- The game server's list, `header`, was discarded, and the game server took `bytes` of the
`PlayServer` packet. -/
def played (header rest bytes : List UInt8) (c : Connection) : Connection :=
  (((c.setInbound (c.server.advance header rest) .server).emit
    (.send .server playServerPacket bytes)).mapEvent .scheduleRead .client).setState .ready

inductive Lists (c : Connection) : Result → Prop
  | failed {s : Inbound} (h : s.stream = c.server.stream) :
      Lists c (.destroyed (c.setInbound s .server))
  | played {header rest bytes : List UInt8} (hq : c.server.queue = header ++ rest)
      (hlen : header.length = unpackBE16 (header.drop 1)) (hle : 3 ≤ header.length) :
      Lists c (.alive (c.played header rest bytes))

theorem server_setInbound (c : Connection) (s : Inbound) : (c.setInbound s .server).server = s := rfl

theorem setInbound_setInbound (c : Connection) (s s' : Inbound) (side : Side) :
    (c.setInbound s side).setInbound s' side = c.setInbound s' side := by
  cases side <;> rfl

theorem Inbound.advance_advance (s : Inbound) (as bs mid rest : List UInt8) :
    (s.advance as mid).advance bs rest = s.advance (as ++ bs) rest := by
  simp only [Inbound.advance, List.append_assoc]

/-- **`ReceiveServerList`**: the connection is destroyed, or the list was there and the game server
took `bytes` of the answer. -/
theorem receiveServerList_cases (ans : Answers) :
    (∃ s : Inbound, s.stream = c.server.stream ∧
      c.receiveServerList ans = .destroyed (c.setInbound s .server)) ∨
    ∃ hi lo body rest bytes,
      c.server.queue = (Command.serverList.byte :: hi :: lo :: body) ++ rest ∧
      sizeofServerList ≤ unpackBE16 [hi, lo] ∧ body.length = unpackBE16 [hi, lo] - 3 ∧
      ans.sendPlayServer.accepted playServerPacket = some bytes ∧
      c.receiveServerList ans =
        .alive (c.played (Command.serverList.byte :: hi :: lo :: body) rest bytes) := by
  unfold receiveServerList
  rcases c.server.readNoWait_cases 1 ans.readCommand with h | ⟨command, rest, hne, hlen, hq, h⟩
  · rw [h]
    exact .inl ⟨_, rfl, rfl⟩
  rw [h]
  have hstream := Inbound.stream_advance hq
  simp only [server_setInbound, setInbound_setInbound]
  split
  · exact .inl ⟨_, hstream, rfl⟩
  rename_i hcommand
  obtain rfl : command = [Command.serverList.byte] := Option.some.inj (not_not.mp hcommand)
  rcases (c.server.advance [Command.serverList.byte] rest).readNoWait_cases 2 ans.readLength with
    h | ⟨bytes, rest', hne', hlen', hq', h⟩
  · rw [h]
    exact .inl ⟨_, hstream, rfl⟩
  rw [h]
  have hstream' := (Inbound.stream_advance hq').trans hstream
  simp only
  split
  · exact .inl ⟨_, hstream', rfl⟩
  rename_i hbytes
  obtain ⟨htwo, hsize⟩ := not_or.mp hbytes
  obtain ⟨hi, lo, rfl⟩ := List.length_eq_two.mp (not_not.mp htwo)
  rcases discard_cases ((c.server.advance [Command.serverList.byte] rest).advance [hi, lo] rest')
    (unpackBE16 [hi, lo] - 3) ans.discard with ⟨s, hs, h⟩ | ⟨body, rest'', hbody, hq'', h⟩
  · rw [h]
    exact .inl ⟨_, hs.trans hstream', rfl⟩
  rw [h, Inbound.advance_advance, Inbound.advance_advance]
  simp only [Bool.true_eq_false, if_false]
  change rest = [hi, lo] ++ rest' at hq'
  change rest' = body ++ rest'' at hq''
  have hheader : c.server.queue = (Command.serverList.byte :: hi :: lo :: body) ++ rest'' := by
    rw [hq, hq', hq'']
    rfl
  rcases sendTo_cases (c.setInbound (c.server.advance (Command.serverList.byte :: hi :: lo :: body)
    rest'') .server) .server playServerPacket ans.sendPlayServer with h | ⟨sent, ha, h⟩
  · exact .inl ⟨_, Inbound.stream_advance hheader, by simp only [List.cons_append, List.nil_append, h]; rfl⟩
  · have hpos : ¬ (sent.length : ℤ) < 0 := by omega
    refine .inr ⟨hi, lo, body, rest'', sent, hheader, Nat.not_lt.mp hsize, hbody, ha, ?_⟩
    simp only [List.cons_append, List.nil_append, h, if_neg hpos]
    rfl

theorem receiveServerList_lists (ans : Answers) : Lists c (c.receiveServerList ans) := by
  rcases receiveServerList_cases (c := c) ans with
    ⟨s, hs, h⟩ | ⟨hi, lo, body, rest, bytes, hq, hsize, hbody, -, h⟩
  · rw [h]
    exact .failed hs
  · unfold sizeofServerList at hsize
    have hlength : (Command.serverList.byte :: hi :: lo :: body).length = unpackBE16 [hi, lo] := by
      simp only [List.length_cons]
      omega
    rw [h]
    exact .played hq hlength (by omega)

/-! ## The relay -/

/-- The part of `DoSpliceSend` before the flags: `bytes` went to the sink. -/
def delivered (d : Dir) (s : Splice UInt8) (bytes : List UInt8) (c : Connection) : Connection :=
  ((c.emit (.sendTo d true (c.splice d).size)).setSplice s d).emit (.spliced d.sink bytes)

/-- How a direction with bytes in its pipe sends. -/
inductive Sends (c : Connection) (d : Dir) (ch : SpliceChoice) : Result → Prop
  | drained {s : Splice UInt8} {bytes : List UInt8} (hz : s.size = 0)
      (ht : s.taken = (c.splice d).taken) (hd : s.delivered = (c.splice d).delivered ++ bytes)
      {n : ℕ} (hch : ch = .upTo n) (hn : (c.splice d).size ≤ n + 1) :
      Sends c d ch (.alive ((c.delivered d s bytes).mapEvent .cancelOnlyWrite d.sink))
  | blocked {s : Splice UInt8} {bytes : List UInt8} (hz : s.size ≠ 0) (hp : s.pipe.isSome)
      (ht : s.taken = (c.splice d).taken) (hd : s.delivered = (c.splice d).delivered ++ bytes) :
      Sends c d ch (.alive (((c.delivered d s bytes).mapEvent .cancelOnlyRead d.source).mapEvent
        .scheduleWrite d.sink))
  | failed (hch : ch.flows = false) : Sends c d ch (.destroyed (c.delivered d (c.splice d) []))

theorem splice_emit (c : Connection) (a : Act) (d : Dir) : (c.emit a).splice d = c.splice d := by
  cases d <;> rfl

theorem splice_mapEvent (c : Connection) (f : SocketEvent → SocketEvent) (side : Side) (d : Dir) :
    (c.mapEvent f side).splice d = c.splice d := by
  cases side <;> cases d <;> rfl

theorem sendOrDestroy_sends (stock : PipeStock UInt8) (d : Dir) (ch : SpliceChoice)
    (hp : (c.splice d).pipe.isSome) (hz : (c.splice d).size ≠ 0) :
    Sends c d ch (sendOrDestroy stock c d ch).2 := by
  obtain ⟨sent, hsent, ht, hd, hcases⟩ := Splice.sendTo_cases stock ch hp hz
  unfold sendOrDestroy doSpliceSend
  simp only [splice_emit, hp, hsent]
  rcases hcases with ⟨hr, hz', n, hch, hn⟩ | ⟨hr, hz', hp'⟩ | ⟨hr, hs, hm, hch⟩
  · rw [hr]
    exact .drained hz' ht hd hch hn
  · rcases hr with hr | hr
    · rw [hr]
      exact .blocked hz' hp' ht hd
    · rw [hr]
      exact .blocked hz' hp' ht hd
  · rw [hr, hs, hm]
    exact .failed hch

/-- The `READ` branch before its `switch`: `bytes` came from the source. -/
def received (d : Dir) (s : Splice UInt8) (bytes rest : List UInt8) (result : ReceiveResult)
    (c : Connection) : Connection :=
  ((((c.setSplice (c.splice d).clearReceived d).emit (.receiveFrom d 0)).setInbound
    ((c.inbound d.source).advance bytes rest) d.source).setSplice s d).emit (.received d result)

theorem splice_received (d : Dir) (s : Splice UInt8) (bytes rest : List UInt8)
    (result : ReceiveResult) (c : Connection) : (c.received d s bytes rest result).splice d = s := by
  cases d <;> rfl

theorem splice_received_of_ne {d d' : Dir} (h : d' ≠ d) (s : Splice UInt8) (bytes rest : List UInt8)
    (result : ReceiveResult) (c : Connection) :
    (c.received d s bytes rest result).splice d' = c.splice d' := by
  cases d <;> cases d' <;> first | exact (h rfl).elim | rfl

/-- How a direction with an empty pipe receives. -/
inductive Receives (c : Connection) (d : Dir) (ch : SpliceChoice) : Result → Prop
  | throws : Receives c d ch (.crashed .throws
      ((c.setSplice (c.splice d).clearReceived d).emit (.receiveFrom d 0)))
  | got {s : Splice UInt8} {bytes rest : List UInt8}
      (hq : (c.inbound d.source).queue = bytes ++ rest) (ht : s.taken = (c.splice d).taken ++ bytes)
      (hd : s.delivered = (c.splice d).delivered) (hz : s.size ≠ 0) (hp : s.pipe.isSome) {n : ℕ}
      {r : Result}
      (h : Sends ((c.received d s bytes rest .ok).emit (.metric (bytesMetric d) n)) d ch r)
      (hn : n = bytes.length) : Receives c d ch r
  | blocked {s : Splice UInt8} {rest : List UInt8} (hq : (c.inbound d.source).queue = rest)
      (ht : s.taken = (c.splice d).taken) (hd : s.delivered = (c.splice d).delivered)
      (hz : s.size = 0) : Receives c d ch (.alive (c.received d s [] rest .socketBlocking))
  | closed {s : Splice UInt8} {rest : List UInt8} (hq : (c.inbound d.source).queue = rest)
      (ht : s.taken = (c.splice d).taken) (hd : s.delivered = (c.splice d).delivered) :
      Receives c d ch (.destroyed (((c.received d s [] rest .socketClosed).emit
        (.sourceClosed d s.taken s.delivered)).emit (.shutdownWrite d.sink)))
  | failed {s : Splice UInt8} {rest : List UInt8} (hq : (c.inbound d.source).queue = rest)
      (ht : s.taken = (c.splice d).taken) (hd : s.delivered = (c.splice d).delivered) :
      Receives c d ch (.destroyed (c.received d s [] rest .error))

theorem inbound_emit_setSplice (c : Connection) (s : Splice UInt8) (a : Act) (d : Dir) (side : Side) :
    ((c.setSplice s d).emit a).inbound side = c.inbound side := by
  cases d <;> cases side <;> rfl

theorem receiveReady_receives (stock : PipeStock UInt8) (d : Dir) (ans : Answers)
    (hz : (c.splice d).size = 0) :
    Receives c d ans.sendReceived (receiveReady stock c d ans).2 := by
  have hz' : (c.splice d).clearReceived.size = 0 := hz
  unfold receiveReady
  simp only [inbound_emit_setSplice, hz']
  rcases Splice.receiveFrom_cases stock (c.inbound d.source).queue ans.getNow ans.receive hz' with
    h | ⟨got, h, hq, ht, hd, hcases⟩
  · rw [h]
    exact .throws
  · rw [h]
    simp only
    rcases hcases with ⟨hr, hz'', hp, hn⟩ | ⟨hr, hm, hz''⟩
    · rw [hr]
      refine .got hq.symm ht hd hz'' hp (sendOrDestroy_sends _ d _ ?_ ?_) (hn.trans (Nat.zero_add _))
      · rw [splice_emit, splice_received]
        exact hp
      · rw [splice_emit, splice_received]
        exact hz''
    · rw [hm, List.nil_append] at hq
      rw [hm, List.append_nil] at ht
      rcases hr with hr | hr | hr
      · rw [hr, hm]
        exact .blocked hq.symm ht hd hz''
      · rw [hr, hm]
        exact .closed hq.symm ht hd
      · rw [hr, hm]
        exact .failed hq.symm ht hd

end Connection

end UoLogin
