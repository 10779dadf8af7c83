import UoLogin.Requesters.Consults
import UoLogin.Segmentation
import UoLogin.Transparency

set_option autoImplicit false

/-!
# The login packets and TCP segments

`ReceiveLoginPackets` collects the first 83 bytes of a client in `initial_packets`, in however many
reads they come, and decides once they are complete.

* `onClient`: what comes after the last read does not look at the client's stream
  (`onClient_loginComplete`);
* `loginChunks`, `loginChunks_short`, **`loginChunks_complete`**: what some chunks come to;
* `loginDecision`: the decision, read off the stream;
* **`login_segmentation`**: no matter how the stream is split, it comes to the same.
-/

namespace UoLogin

/-! ## After the last read -/

/-- Change the client's stream. -/
def Connection.onClient (g : Inbound → Inbound) (c : Connection) : Connection :=
  { c with client := g c.client }

def Result.onClient (g : Inbound → Inbound) : Result → Result
  | .alive c => .alive (c.onClient g)
  | .destroyed c => .destroyed (c.onClient g)
  | .crashed why c => .crashed why (c.onClient g)

/-- Without the unread bytes of the client. -/
def Result.unheard : Result → Result := Result.onClient fun s => { s with queue := [] }

namespace Connection

variable {setup : Setup} {ans : Answers} {stock : PipeStock UInt8} {c c' : Connection}

section OnClient

variable {g : Inbound → Inbound}

@[simp] theorem onClient_emit (c : Connection) (a : Act) :
    (c.onClient g).emit a = (c.emit a).onClient g := rfl

@[simp] theorem onClient_setState (c : Connection) (s : State) :
    (c.onClient g).setState s = (c.setState s).onClient g := rfl

@[simp] theorem onClient_setTimeout (c : Connection) (t : Option ℕ) :
    (c.onClient g).setTimeout t = (c.setTimeout t).onClient g := rfl

@[simp] theorem onClient_setConnect (c : Connection) (t : Option ℕ) :
    (c.onClient g).setConnect t = (c.setConnect t).onClient g := rfl

@[simp] theorem onClient_setCancelPtr (c : Connection) (b : Bool) :
    (c.onClient g).setCancelPtr b = (c.setCancelPtr b).onClient g := rfl

@[simp] theorem onClient_setJob (c : Connection) (job : Option (List UInt8 × List UInt8)) :
    (c.onClient g).setJob job = (c.setJob job).onClient g := rfl

@[simp] theorem onClient_setOutgoingAddress (c : Connection) (a : SocketAddress) :
    (c.onClient g).setOutgoingAddress a = (c.setOutgoingAddress a).onClient g := rfl

@[simp] theorem onClient_mapEvent (c : Connection) (f : SocketEvent → SocketEvent) (peer : Side) :
    (c.onClient g).mapEvent f peer = (c.mapEvent f peer).onClient g := by
  cases peer <;> rfl

@[simp] theorem state_onClient (c : Connection) : (c.onClient g).state = c.state := rfl

@[simp] theorem initialPackets_onClient (c : Connection) :
    (c.onClient g).initialPackets = c.initialPackets := rfl

@[simp] theorem initialPacketsFill_onClient (c : Connection) :
    (c.onClient g).initialPacketsFill = c.initialPacketsFill := rfl

@[simp] theorem remoteHost_onClient (c : Connection) :
    (c.onClient g).remoteHost = c.remoteHost := rfl

@[simp] theorem sendPlayServer_onClient (c : Connection) :
    (c.onClient g).sendPlayServer = c.sendPlayServer := rfl

@[simp] theorem perClient_onClient (c : Connection) : (c.onClient g).perClient = c.perClient := rfl

@[simp] theorem onClient_alive (c : Connection) :
    (Result.alive c).onClient g = .alive (c.onClient g) := rfl

@[simp] theorem onClient_destroyed (c : Connection) :
    (Result.destroyed c).onClient g = .destroyed (c.onClient g) := rfl

@[simp] theorem onClient_crashed (why : Stop) (c : Connection) :
    (Result.crashed why c).onClient g = .crashed why (c.onClient g) := rfl

theorem onClient_ite (p : Prop) [Decidable p] (r r' : Result) :
    (if p then r else r').onClient g = if p then r.onClient g else r'.onClient g :=
  apply_ite (Result.onClient g) p r r'

@[simp] theorem onClient_sendTo (c : Connection) (peer : Side) (buffer : List UInt8)
    (ch : SendChoice) : (c.onClient g).sendTo peer buffer ch =
      ((c.sendTo peer buffer ch).1, (c.sendTo peer buffer ch).2.onClient g) := by
  unfold sendTo
  cases ch.accepted buffer <;> rfl

@[simp] theorem onClient_updateTokenBucket (c : Connection) (size : ℕ) :
    (c.onClient g).updateTokenBucket size = (c.updateTokenBucket size).onClient g := by
  simp only [updateTokenBucket, perClient_onClient, onClient_emit, apply_ite (onClient g)]
  rfl

@[simp] theorem onClient_rejectLogin (c : Connection) :
    (c.onClient g).rejectLogin ans = (c.rejectLogin ans).onClient g := by
  simp only [rejectLogin, onClient_sendTo, onClient_emit, apply_ite (onClient g)]

@[simp] theorem onClient_onSocketConnectSuccess (c : Connection) :
    (c.onClient g).onSocketConnectSuccess setup ans =
      (c.onSocketConnectSuccess setup ans).onClient g := by
  have hsend : (c.onClient g).sendInitialPackets setup ans =
      ((c.sendInitialPackets setup ans).1, (c.sendInitialPackets setup ans).2.onClient g) :=
    onClient_sendTo c .server _ ans.sendInitial
  unfold onSocketConnectSuccess
  rw [hsend, onClient_ite, onClient_ite]
  generalize c.sendInitialPackets setup ans = sent
  obtain ⟨n, c₁⟩ := sent
  refine congrArg (ite _ _) (congrArg (ite _ _) ?_)
  by_cases hn : n > 0
  · simp only [if_pos hn]
    rw [onClient_ite]
    rfl
  · simp only [if_neg hn, onClient_destroyed]

@[simp] theorem onClient_onSocketConnectError (c : Connection) :
    (c.onClient g).onSocketConnectError = c.onSocketConnectError.onClient g := by
  unfold onSocketConnectError
  rw [onClient_ite]
  rfl

@[simp] theorem onClient_connectTo (c : Connection) (address : SocketAddress) :
    (c.onClient g).connectTo setup ans address = (c.connectTo setup ans address).onClient g := by
  unfold connectTo
  cases ans.connect <;> simp

@[simp] theorem onClient_sendServerList (c : Connection) :
    (c.onClient g).sendServerList setup ans = (c.sendServerList setup ans).onClient g := by
  simp [sendServerList, onClient_ite]

@[simp] theorem onClient_onCheckCredentials (c : Connection) (username : List UInt8)
    (result : Bool) : (c.onClient g).onCheckCredentials setup ans username result =
      (c.onCheckCredentials setup ans username result).onClient g := by
  simp [onCheckCredentials, onClient_ite]

@[simp] theorem onClient_checkCredentials (c : Connection) (username password : List UInt8) :
    (c.onClient g).checkCredentials setup ans username password =
      (c.checkCredentials setup ans username password).onClient g := by
  unfold checkCredentials
  cases ans.check <;> simp

/-- **What comes after the last read does not look at the client's stream.** -/
theorem onClient_loginComplete (c : Connection) :
    (c.onClient g).loginComplete setup ans = (c.loginComplete setup ans).onClient g := by
  simp [loginComplete, onClient_ite]

end OnClient

/-! ## Chunks -/

/-- The client's bytes in `INITIAL`. -/
def loginChunks (setup : Setup) (stock : PipeStock UInt8) (ans : Answers) (c : Connection)
    (chunks : List (List UInt8)) : Result :=
  chunks.foldl (deliver .initial .client fun c =>
    (c.onIncomingReady setup stock { read := true } ans).2) (.alive c)

theorem loginChunks_append (c : Connection) (before after : List (List UInt8)) :
    loginChunks setup stock ans c (before ++ after) =
      after.foldl (deliver .initial .client fun c =>
        (c.onIncomingReady setup stock { read := true } ans).2)
        (loginChunks setup stock ans c before) :=
  List.foldl_append

/-- A connection that waits for the login packets, before the first byte. -/
structure Fresh (c : Connection) : Prop where
  state : c.state = .initial
  connect : c.connect = none
  fill : c.initialPacketsFill = 0
  queue : c.client.queue = []

theorem fresh_new (remoteHost : List UInt8) (perClient : Option UInt64) :
    Fresh (.new remoteHost perClient) := ⟨rfl, rfl, rfl, rfl⟩

/-- The connection has read `bytes` of the login, and `rest` is unread. -/
def receiving (p : InitialPackets) (bytes rest : List UInt8) (c : Connection) : Connection :=
  { c with
    client := { consumed := c.client.consumed ++ bytes, queue := rest }
    initialPackets := p
    initialPacketsFill := bytes.length }

/-- The callback of the client's socket in `INITIAL`. -/
theorem onIncomingReady_initial (hs : c.state = .initial) (hc : c.connect = none) :
    (c.onIncomingReady setup stock { read := true } ans).2 = c.receiveLoginPackets setup ans := by
  unfold onIncomingReady
  rw [if_neg (by decide), if_neg (by rw [hc]; decide), if_pos hs]
  rfl

/-- More bytes of the login were read. -/
theorem filled_receiving (c : Connection) (p : InitialPackets) {bytes new : List UInt8}
    (h : bytes.length + new.length ≤ 83) (chunk rest : List UInt8) :
    ((c.receiving p bytes []).arrive .client chunk).filled new rest =
      c.receiving (p.fillAt bytes.length new) (bytes ++ new) rest := by
  have hfill : (bytes.length + new.length) % 256 = (bytes ++ new).length := by
    rw [List.length_append]
    exact Nat.mod_eq_of_lt (by omega)
  unfold receiving
  rw [← hfill, ← List.append_assoc]
  rfl

section Chunks

variable (hfresh : Fresh c) {k : ℕ} (hk : 82 ≤ k) (hread : ans.read = .upTo k)
  {p : InitialPackets} {bytes chunk : List UInt8} (hp : p.bytes.take bytes.length = bytes)
  (hbytes : bytes.length < 83) (hchunk : chunk ≠ [])

include hk hread hbytes hchunk in
/-- The read takes what there is, up to the end of the buffer. -/
theorem readNoWait_login (c : Connection) (p : InitialPackets) :
    ((c.receiving p bytes []).arrive .client chunk).client.readNoWait (initialSize - bytes.length)
        ans.read =
      (some (chunk.take (83 - bytes.length)),
        ((c.receiving p bytes []).arrive .client chunk).client.advance
          (chunk.take (83 - bytes.length)) (chunk.drop (83 - bytes.length))) := by
  have hq : ((c.receiving p bytes []).arrive .client chunk).client.queue = chunk := rfl
  have hpos := List.length_pos_iff.mpr hchunk
  have hne : ¬ (chunk.take (83 - bytes.length)).isEmpty = true := by
    rw [List.isEmpty_iff, ← List.length_eq_zero_iff, List.length_take]
    omega
  rw [hread, readNoWait_upTo _ (by unfold initialSize; omega), hq]
  exact if_neg hne

include hfresh hk hread hp hbytes hchunk

variable (setup) in
/-- **A chunk that leaves the login incomplete.** -/
theorem receiveLoginPackets_short (hlt : bytes.length + chunk.length < 83) :
    ∃ p' : InitialPackets, p'.bytes.take (bytes ++ chunk).length = bytes ++ chunk ∧
      ((c.receiving p bytes []).arrive .client chunk).receiveLoginPackets setup ans =
        .alive (c.receiving p' (bytes ++ chunk) []) := by
  have hall : chunk.take (83 - bytes.length) = chunk := List.take_of_length_le (by omega)
  have hnone : chunk.drop (83 - bytes.length) = [] := List.drop_eq_nil_of_le (by omega)
  have hread' := readNoWait_login hk hread hbytes hchunk c p
  rw [hall, hnone] at hread'
  refine ⟨p.fillAt bytes.length chunk, ?_, ?_⟩
  · rw [List.length_append, take_fillAt p (Nat.le_of_lt hlt), hp]
  · have hfilled := filled_receiving c p (Nat.le_of_lt hlt) chunk []
    rw [← hfilled]
    exact receiveLoginPackets_incomplete hfresh.state hbytes hread' hlt

variable (setup) in
/-- **A chunk that completes the login.** -/
theorem receiveLoginPackets_full (hle : 83 ≤ bytes.length + chunk.length) :
    ∃ p' : InitialPackets, p'.bytes = (bytes ++ chunk).take 83 ∧
      ((c.receiving p bytes []).arrive .client chunk).receiveLoginPackets setup ans =
        (c.receiving p' ((bytes ++ chunk).take 83) ((bytes ++ chunk).drop 83)).loginComplete setup
          ans := by
  have hlen : (chunk.take (83 - bytes.length)).length = 83 - bytes.length :=
    List.length_take_of_le (by omega)
  have hsum : bytes.length + (chunk.take (83 - bytes.length)).length = 83 := by omega
  have htake : (bytes ++ chunk).take 83 = bytes ++ chunk.take (83 - bytes.length) := by
    rw [List.take_append, List.take_of_length_le (Nat.le_of_lt hbytes)]
  have hdrop : (bytes ++ chunk).drop 83 = chunk.drop (83 - bytes.length) := by
    rw [List.drop_append, List.drop_eq_nil_of_le (Nat.le_of_lt hbytes), List.nil_append]
  have hfilled := filled_receiving c p (Nat.le_of_eq hsum) chunk (chunk.drop (83 - bytes.length))
  have hbuffer := take_fillAt p (Nat.le_of_eq hsum)
  rw [hsum, hp] at hbuffer
  refine ⟨p.fillAt bytes.length (chunk.take (83 - bytes.length)), ?_, ?_⟩
  · rw [htake, ← hbuffer]
    exact (List.take_of_length_le (Nat.le_of_eq (InitialPackets.length_eq _))).symm
  · rw [htake, hdrop, ← hfilled]
    exact receiveLoginPackets_complete hfresh.state hbytes
      (readNoWait_login hk hread hbytes hchunk c p) hsum

end Chunks

/-- The chunk with byte 83. -/
theorem exists_completing {chunks : List (List UInt8)} (h : 83 ≤ chunks.flatten.length) :
    ∃ before chunk after, chunks = before ++ chunk :: after ∧ before.flatten.length < 83 ∧
      83 ≤ (before.flatten ++ chunk).length := by
  induction chunks using List.reverseRecOn with
  | nil => exact absurd h (by decide)
  | append_singleton chunks last ih =>
      by_cases hle : 83 ≤ chunks.flatten.length
      · obtain ⟨before, chunk, after, rfl, hlt, hfull⟩ := ih hle
        exact ⟨before, chunk, after ++ [last], by simp, hlt, hfull⟩
      · refine ⟨chunks, last, [], rfl, Nat.not_le.mp hle, ?_⟩
        simpa using h

section Stream

variable (hfresh : Fresh c) {k : ℕ} (hk : 82 ≤ k) (hread : ans.read = .upTo k)

include hfresh

theorem receiving_nil : c.receiving c.initialPackets [] [] = c := by
  obtain ⟨-, -, hfill, hq⟩ := hfresh
  unfold receiving
  rw [List.append_nil, List.length_nil, ← hfill, ← hq]

include hk hread

variable (setup stock) in
/-- **Before byte 83** nothing is decided. -/
theorem loginChunks_short {chunks : List (List UInt8)} (hsplit : Split chunks)
    (hlt : chunks.flatten.length < 83) :
    ∃ p : InitialPackets, p.bytes.take chunks.flatten.length = chunks.flatten ∧
      loginChunks setup stock ans c chunks = .alive (c.receiving p chunks.flatten []) := by
  induction chunks using List.reverseRecOn with
  | nil => exact ⟨c.initialPackets, rfl, congrArg Result.alive (receiving_nil hfresh).symm⟩
  | append_singleton chunks chunk ih =>
      have hflatten : (chunks ++ [chunk]).flatten = chunks.flatten ++ chunk := by simp
      have hchunk : chunk ≠ [] := hsplit chunk (by simp)
      have hpos := List.length_pos_iff.mpr hchunk
      rw [hflatten, List.length_append] at hlt
      obtain ⟨p, hp, hchunks⟩ := ih (fun x hx => hsplit x (by simp [hx])) (by omega)
      obtain ⟨p', hp', hresult⟩ := receiveLoginPackets_short setup hfresh hk hread hp
        (by omega) hchunk hlt
      refine ⟨p', by rw [hflatten]; exact hp', ?_⟩
      rw [loginChunks_append, hchunks, hflatten, ← hresult]
      exact (if_pos hfresh.state).trans (onIncomingReady_initial hfresh.state hfresh.connect)

variable (setup stock) in
/-- **The chunk with byte 83** completes the login. -/
theorem loginChunks_full {before : List (List UInt8)} {chunk : List UInt8}
    (hsplit : Split before) (hlt : before.flatten.length < 83)
    (hle : 83 ≤ (before.flatten ++ chunk).length) :
    ∃ p : InitialPackets, p.bytes = (before.flatten ++ chunk).take 83 ∧
      loginChunks setup stock ans c (before ++ [chunk]) =
        (c.receiving p ((before.flatten ++ chunk).take 83)
          ((before.flatten ++ chunk).drop 83)).loginComplete setup ans := by
  rw [List.length_append] at hle
  obtain ⟨p, hp, hbefore⟩ := loginChunks_short setup stock hfresh hk hread
    hsplit hlt
  obtain ⟨p', hp', hresult⟩ := receiveLoginPackets_full setup hfresh hk hread hp hlt
    (List.ne_nil_of_length_pos (by omega)) hle
  refine ⟨p', hp', ?_⟩
  rw [loginChunks_append, hbefore, ← hresult]
  exact (if_pos hfresh.state).trans (onIncomingReady_initial hfresh.state hfresh.connect)

variable (setup stock) in
/-- **The whole stream.** Apart from the unread bytes, the result is that of a connection with the
first 83 bytes in its buffer. -/
theorem loginChunks_complete {chunks : List (List UInt8)} (hsplit : Split chunks)
    (hle : 83 ≤ chunks.flatten.length) :
    ∃ p : InitialPackets, p.bytes = chunks.flatten.take 83 ∧
      (loginChunks setup stock ans c chunks).unheard =
        (c.receiving p (chunks.flatten.take 83) []).loginComplete setup ans ∧
      (loginChunks setup stock ans c chunks).conn.client.consumed =
        c.client.consumed ++ chunks.flatten.take 83 ∧
      ∀ c', loginChunks setup stock ans c chunks = .alive c' →
        c'.client.queue = chunks.flatten.drop 83 := by
  obtain ⟨before, chunk, after, rfl, hlt, hfull⟩ := exists_completing hle
  have hbefore : Split before := fun x hx => hsplit x (List.mem_append_left _ hx)
  have hflatten : (before ++ chunk :: after).flatten =
      (before.flatten ++ chunk) ++ after.flatten := by simp
  have htake : (before ++ chunk :: after).flatten.take 83 = (before.flatten ++ chunk).take 83 := by
    rw [hflatten, List.take_append_of_le_length hfull]
  have hdrop : (before ++ chunk :: after).flatten.drop 83 =
      (before.flatten ++ chunk).drop 83 ++ after.flatten := by
    rw [hflatten, List.drop_append_of_le_length hfull]
  obtain ⟨p, hp, hresult⟩ := loginChunks_full setup stock hfresh hk hread
    hbefore hlt hfull
  have hchunks : loginChunks setup stock ans c (before ++ chunk :: after) =
      after.foldl (deliver .initial .client fun c =>
        (c.onIncomingReady setup stock { read := true } ans).2)
        ((c.receiving p ((before.flatten ++ chunk).take 83)
          ((before.flatten ++ chunk).drop 83)).loginComplete setup ans) := by
    rw [← hresult, ← loginChunks_append, List.append_assoc]
    rfl
  rw [htake, hdrop, hchunks]
  have hfill : (c.receiving p ((before.flatten ++ chunk).take 83)
      ((before.flatten ++ chunk).drop 83)).initialPacketsFill = initialSize :=
    List.length_take_of_le hfull
  have hcompletes : Completes setup _ (loginComplete setup ans _) := loginComplete_completes ans hfill
  have hopens := hcompletes.opens
  have hclient := congrArg Held.client hopens.held
  have hunheard : ((c.receiving p ((before.flatten ++ chunk).take 83)
      ((before.flatten ++ chunk).drop 83)).loginComplete setup ans).unheard =
      (c.receiving p ((before.flatten ++ chunk).take 83) []).loginComplete setup ans :=
    (onClient_loginComplete _).symm
  refine ⟨p, hp, ?_⟩
  revert hopens hclient hunheard
  generalize (c.receiving p ((before.flatten ++ chunk).take 83)
    ((before.flatten ++ chunk).drop 83)).loginComplete setup ans = r
  intro hopens hclient hunheard
  cases r with
  | alive c' =>
      rw [deliver_alive (hopens.alive c' rfl).1]
      refine ⟨hunheard, congrArg Inbound.consumed hclient, fun c'' hc'' => ?_⟩
      obtain rfl := Result.alive.inj hc''
      exact congrArg (· ++ after.flatten) (congrArg Inbound.queue hclient)
  | destroyed c' =>
      rw [deliver_stopped fun c'' h => Result.noConfusion h]
      exact ⟨hunheard, congrArg Inbound.consumed hclient, fun c'' h => Result.noConfusion h⟩
  | crashed why c' =>
      rw [deliver_stopped fun c'' h => Result.noConfusion h]
      exact ⟨hunheard, congrArg Inbound.consumed hclient, fun c'' h => Result.noConfusion h⟩

end Stream

/-! ## The decision -/

/-- What the login packets of a client come to. -/
inductive LoginDecision where
  | malformed (size : ℕ)
  | check (username password : List UInt8)
  deriving DecidableEq, Repr

/-- The decision, read off the stream: the name is the field from byte 22 on, up to its first NUL, and
the password that from byte 52 on. -/
def loginDecision (util : CharUtil) (stream : List UInt8) : LoginDecision :=
  if stream[0]? ≠ some 0xef ∨ stream[21]? ≠ some 0x80 then .malformed 10
  else if isValidUsername util (extractString ((stream.drop 22).take 30)) = false then .malformed 8
  else .check (extractString ((stream.drop 22).take 30)) (extractString ((stream.drop 52).take 30))

/-- The handler did as was decided: a malformed login is counted, charged and at most answered before
the connection is destroyed, and otherwise `CheckCredentials` is called once. -/
def Follows (c : Connection) (r : Result) : LoginDecision → Prop
  | .malformed size => ∃ c' tail, r = .destroyed c' ∧ Rejection tail ∧
      c'.log = c.log ++ (.metric .malformedLogins 1 :: (c.charge size ++ tail))
  | .check username password => ∃ tail, (∀ a ∈ tail, a.credentials = none) ∧
      r.conn.log = c.log ++ (.state .checkCredentials :: .checkCredentials username password :: tail)

theorem hasCommand_eq_false_iff {packet : List UInt8} {cmd : Command} :
    hasCommand packet cmd = false ↔ packet[0]? ≠ some cmd.byte := by
  unfold hasCommand
  rw [List.head?_eq_getElem?]
  exact beq_eq_false_iff_ne

/-- Nothing is asked in a verdict. -/
theorem Judges.asks_nothing {username : List UInt8} {result : Bool} {r : Result}
    (h : Judges setup username c result r) :
    ∃ tail, (∀ a ∈ tail, a.credentials = none) ∧ r.conn.log = c.log ++ tail := by
  have hjudged : ∀ {quiet : List Act}, Quiet quiet →
      Unasking ({ c with cancelPtr := false, job := c.job } : Connection)
        ((c.judged username result).emits quiet) := by
    intro quiet hq
    refine ⟨⟨.onCheckCredentials username result :: quiet, ?_, ?_⟩, rfl, rfl⟩
    · exact List.append_assoc _ [_] _
    · intro a ha
      rcases List.mem_cons.mp ha with rfl | ha
      · rfl
      · exact Quiet.credentials hq a ha
  cases h with
  | @rejected quiet tail hq ht he =>
      have htail := (hjudged hq).trans (unasking_emits _ (Rejection.credentials ht))
      obtain ⟨acts, hlog, hacts⟩ := htail.log
      rw [emits_emits] at hlog
      exact ⟨acts, hacts, hlog⟩
  | accepted hq h he =>
      obtain ⟨acts, hlog, hacts⟩ := ((hjudged hq).trans h.unasking).log
      exact ⟨acts, hacts, hlog⟩

variable (setup ans) in
/-- Nothing is asked after the call of `CheckCredentials`. -/
theorem checkCredentials_asks (hs : c.state = .checkCredentials)
    (hf : c.initialPacketsFill = initialSize) (username password : List UInt8) :
    ∃ tail, (∀ a ∈ tail, a.credentials = none) ∧
      (c.checkCredentials setup ans username password).conn.log =
        c.log ++ (.checkCredentials username password :: tail) := by
  have hafter : ∀ {log tail : List Act},
      log = (c.emit (.checkCredentials username password)).log ++ tail →
      log = c.log ++ (.checkCredentials username password :: tail) := by
    intro log tail h
    exact h.trans (List.append_assoc _ [_] _)
  unfold checkCredentials
  cases ans.check with
  | throws =>
      have hrest := (unasking_updateTokenBucket (c.emit (.checkCredentials username password)) 2).trans
        (unasking_rejectLogin _ ans)
      obtain ⟨acts, hlog, hacts⟩ := hrest.log
      exact ⟨acts, hacts, hafter hlog⟩
  | noDatabase =>
      have hjudges : Judges setup username (c.emit (.checkCredentials username password)) true _ :=
        onCheckCredentials_judges ans username true hs hf
      obtain ⟨acts, hacts, hlog⟩ := hjudges.asks_nothing
      exact ⟨acts, hacts, hafter hlog⟩
  | queued => exact ⟨[], nofun, rfl⟩

theorem loginComplete_follows {stream : List UInt8} (hf : c.initialPacketsFill = initialSize)
    (hbytes : c.initialPackets.bytes = stream.take 83) :
    Follows c (c.loginComplete setup ans) (loginDecision setup.util stream) := by
  have hseed : hasCommand (c.initialPackets.bytes.take sizeofSeed) .seed = false ↔
      stream[0]? ≠ some 0xef := by
    rw [hasCommand_eq_false_iff, hbytes]
    simp [sizeofSeed, Command.byte]
  have hlogin : hasCommand c.login .accountLogin = false ↔ stream[21]? ≠ some 0x80 := by
    rw [hasCommand_eq_false_iff, login, hbytes]
    simp [sizeofSeed, Command.byte]
  have husername : username c.login = extractString ((stream.drop 22).take 30) := by
    unfold username usernameField login
    rw [hbytes]
    simp [sizeofSeed, List.drop_take, List.take_take]
  have hpassword : password c.login = extractString ((stream.drop 52).take 30) := by
    unfold password passwordField login
    rw [hbytes]
    simp [sizeofSeed, List.drop_take, List.take_take]
  rw [loginComplete_eq]
  unfold loginDecision
  simp only [← husername, ← hpassword]
  by_cases hmalformed : stream[0]? ≠ some 0xef ∨ stream[21]? ≠ some 0x80
  · have hcommand := or_congr hseed hlogin
    rw [if_pos hmalformed, if_pos (hcommand.mpr hmalformed), updateTokenBucket_eq]
    refine ⟨_, [], rfl, .skipped, ?_⟩
    rw [List.append_nil]
    exact List.append_assoc _ [_] _
  have hcommand : ¬ (hasCommand (c.initialPackets.bytes.take sizeofSeed) .seed = false ∨
      hasCommand c.login .accountLogin = false) :=
    fun h => hmalformed ((or_congr hseed hlogin).mp h)
  rw [if_neg hmalformed, if_neg hcommand]
  by_cases hname : isValidUsername setup.util (username c.login) = false
  · rw [if_pos hname, if_pos hname]
    obtain ⟨tail, ht, he⟩ := refuse_cases (c.complete.emit (.metric .malformedLogins 1)) ans 8
    refine ⟨_, tail, congrArg Result.destroyed he, ht, ?_⟩
    exact List.append_assoc _ [_] _
  · rw [if_neg hname, if_neg hname]
    obtain ⟨tail, hasks, hlog⟩ := checkCredentials_asks setup ans
      (c := c.complete.setState .checkCredentials) rfl hf (username c.login) (password c.login)
    exact ⟨tail, hasks, hlog.trans (List.append_assoc _ [_] _)⟩

theorem initialPackets_ext {p q : InitialPackets} (h : p.bytes = q.bytes) : p = q := by
  cases p
  cases q
  cases h
  rfl

/-- The unread bytes play no part in a decision. -/
theorem follows_of_unheard {r r' : Result} {d : LoginDecision} (h : r.unheard = r')
    (hf : Follows c r' d) : Follows c r d := by
  have hlog : r.conn.log = r'.conn.log := by
    rw [← h]
    cases r <;> rfl
  cases d with
  | malformed size =>
      obtain ⟨c', tail, hr', ht, hlog'⟩ := hf
      rw [hr'] at h hlog
      cases r with
      | alive c'' => exact Result.noConfusion h
      | crashed why c'' => exact Result.noConfusion h
      | destroyed c'' => exact ⟨c'', tail, rfl, ht, hlog.trans hlog'⟩
  | check username password =>
      obtain ⟨tail, ht, hlog'⟩ := hf
      exact ⟨tail, ht, hlog.trans hlog'⟩

/-- **The login packets and the segments.** A client's stream of at least 83 bytes arrives in chunks,
each with a callback in `INITIAL`. While fewer than 83 bytes have arrived, they are in the buffer and
nothing else has happened. In the end the first 83 bytes have been read and the rest is unread, and
the result is that of the 83 bytes at once: the decision that the stream makes. -/
theorem login_segmentation (setup : Setup) (stock : PipeStock UInt8) (ans : Answers)
    (remoteHost : List UInt8) (perClient : Option UInt64) {k : ℕ} (hk : 82 ≤ k)
    (hread : ans.read = .upTo k) (chunks : List (List UInt8)) (hsplit : ∀ chunk ∈ chunks, chunk ≠ [])
    (hle : 83 ≤ chunks.flatten.length) :
    (∀ before after, chunks = before ++ after → before.flatten.length < 83 →
      ∃ c, loginChunks setup stock ans (.new remoteHost perClient) before = .alive c ∧
        c.state = .initial ∧ c.log = (new remoteHost perClient).log ∧
        c.client.consumed = before.flatten ∧ c.client.queue = [] ∧
        c.initialPacketsFill = before.flatten.length ∧
        c.initialPackets.bytes.take c.initialPacketsFill = before.flatten) ∧
    (loginChunks setup stock ans (.new remoteHost perClient) chunks).conn.client.consumed =
      chunks.flatten.take 83 ∧
    (loginChunks setup stock ans (.new remoteHost perClient) chunks).conn.initialPacketsFill = 83 ∧
    (loginChunks setup stock ans (.new remoteHost perClient) chunks).conn.initialPackets.bytes =
      chunks.flatten.take 83 ∧
    (∀ c, loginChunks setup stock ans (.new remoteHost perClient) chunks = .alive c →
      c.client.queue = chunks.flatten.drop 83) ∧
    (loginChunks setup stock ans (.new remoteHost perClient) chunks).unheard =
      (loginChunks setup stock ans (.new remoteHost perClient) [chunks.flatten.take 83]).unheard ∧
    Follows (.new remoteHost perClient)
      (loginChunks setup stock ans (.new remoteHost perClient) chunks)
      (loginDecision setup.util chunks.flatten) := by
  have hfresh := fresh_new remoteHost perClient
  obtain ⟨p, hp, hresult, hconsumed, hqueue⟩ := loginChunks_complete setup
    stock hfresh hk hread hsplit hle
  have hfull : (chunks.flatten.take 83).length = 83 := List.length_take_of_le hle
  have honce : Split [chunks.flatten.take 83] :=
    List.forall_mem_singleton.mpr (List.ne_nil_of_length_pos (by omega))
  have hflatten : [chunks.flatten.take 83].flatten = chunks.flatten.take 83 := by simp
  obtain ⟨p', hp', hresult', -, -⟩ := loginChunks_complete setup stock hfresh hk
    hread honce (by rw [hflatten, hfull])
  rw [hflatten, List.take_take, Nat.min_self] at hp' hresult'
  obtain rfl : p = p' := initialPackets_ext (hp.trans hp'.symm)
  have hcompletes : Completes setup ((new remoteHost perClient).receiving p (chunks.flatten.take 83) [])
      (loginComplete setup ans _) := loginComplete_completes ans hfull
  have hopens := hcompletes.opens
  have hkept : (loginChunks setup stock ans (.new remoteHost perClient) chunks).conn.initialPackets =
        p ∧ (loginChunks setup stock ans (.new remoteHost perClient) chunks).conn.initialPacketsFill =
        (chunks.flatten.take 83).length := by
    have hk' := hopens.kept
    rw [← hresult] at hk'
    revert hk'
    cases loginChunks setup stock ans (.new remoteHost perClient) chunks with
    | alive c | destroyed c | crashed why c =>
        intro hk'
        exact ⟨congrArg Kept.initialPackets hk', congrArg Kept.fill hk'⟩
  refine ⟨?_, hconsumed, hkept.2.trans hfull, by rw [hkept.1, hp], hqueue, hresult.trans hresult'.symm,
    follows_of_unheard hresult (loginComplete_follows (c := (new remoteHost perClient).receiving p
      (chunks.flatten.take 83) []) hfull hp)⟩
  rintro before after rfl hlt
  obtain ⟨q, hq, hbefore⟩ := loginChunks_short setup stock hfresh hk hread
    (fun chunk hchunk => hsplit chunk (List.mem_append_left _ hchunk)) hlt
  exact ⟨_, hbefore, rfl, rfl, rfl, rfl, rfl, hq⟩

/-- A login in two segments, with one byte more. -/
def sampleSegments : List (List UInt8) :=
  [Instance.samplePackets.take 50, Instance.samplePackets.drop 50 ++ [7]]

theorem login_segmentation_of_sample :
    (∀ chunk ∈ sampleSegments, chunk ≠ []) ∧ 83 ≤ sampleSegments.flatten.length ∧
      (loginChunks (Instance.sampleSetup []) {} { read := .upTo 82 } (.new [] none)
        sampleSegments).conn.client.consumed = sampleSegments.flatten.take 83 ∧
      Follows (.new [] none) (loginChunks (Instance.sampleSetup []) {} { read := .upTo 82 }
        (.new [] none) sampleSegments) (.check [0x61] [0x62]) := by
  have hsplit : ∀ chunk ∈ sampleSegments, chunk ≠ [] := by decide
  have hle : 83 ≤ sampleSegments.flatten.length := by decide
  have h := login_segmentation (Instance.sampleSetup []) {} { read := .upTo 82 } [] none (le_refl 82)
    rfl sampleSegments hsplit hle
  exact ⟨hsplit, hle, h.2.1, h.2.2.2.2.2.2⟩

end Connection

end UoLogin
