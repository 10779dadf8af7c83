import UoLogin.Handshake

set_option autoImplicit false

/-!
# Short writes

`Send` on a socket that does not block may take a part of the buffer. The three senders of the handshake
(`SendInitialPackets`, `SendServerList` and the answer of `ReceiveServerList`) only look at the sign of
what it returns.

* `Whole`: the packets of the handshake were taken as a whole;
* `whole_dispatch`: a callback in which `Send` takes no part of a packet keeps it so;
* **`short_write_iff`**: this holds along every run of such callbacks, and each sender on its own
  goes on after a whole packet only exactly if `Send` does not take a part of it.
-/

namespace UoLogin

/-- `Send` takes some bytes of a buffer of this length, but not all. -/
def SendChoice.TakesPart (ch : SendChoice) (length : ℕ) : Prop := ∃ n, ch = .short n ∧ n + 1 < length

theorem SendChoice.accepted_of_not_takesPart {ch : SendChoice} {buffer bytes : List UInt8}
    (h : ¬ ch.TakesPart buffer.length) (ha : ch.accepted buffer = some bytes) : bytes = buffer := by
  cases ch with
  | all => exact (Option.some.inj ha).symm
  | fails => cases ha
  | short n =>
      have hle : buffer.length ≤ n + 1 := Nat.not_lt.mp fun hlt => h ⟨n, rfl, hlt⟩
      exact (Option.some.inj ha).symm.trans (List.take_of_length_le hle)

theorem SendChoice.eq_iff_not_takesPart {ch : SendChoice} {buffer bytes : List UInt8}
    (ha : ch.accepted buffer = some bytes) : bytes = buffer ↔ ¬ ch.TakesPart buffer.length := by
  refine ⟨?_, fun h => accepted_of_not_takesPart h ha⟩
  rintro rfl ⟨n, rfl, hlt⟩
  have hlen := congrArg List.length (Option.some.inj ha)
  rw [List.length_take] at hlen
  omega

theorem SendChoice.not_takesPart_of_none {ch : SendChoice} {buffer : List UInt8}
    (ha : ch.accepted buffer = none) : ¬ ch.TakesPart buffer.length := by
  rintro ⟨n, rfl, -⟩
  cases ha

/-- A packet was taken as a whole; the notice of a refused login, after which the connection ends, is
no part of the handshake. -/
def Act.Whole : Act → Prop
  | .send _ buffer accepted => buffer = accountLoginRejectPacket ∨ accepted = buffer
  | _ => True

namespace Connection

variable {setup : Setup} {ans : Answers} {stock stock' : PipeStock UInt8} {c : Connection} {r : Result}

/-- Every packet of the handshake was taken as a whole. -/
def Whole (c : Connection) : Prop := ∀ a ∈ c.log, a.Whole

/-! ## The parts of the handlers -/

@[simp] theorem whole_emit (c : Connection) (a : Act) : (c.emit a).Whole ↔ c.Whole ∧ a.Whole := by
  unfold Whole emit
  rw [List.forall_mem_append, List.forall_mem_singleton]

@[simp] theorem whole_setState (c : Connection) (s : State) : (c.setState s).Whole ↔ c.Whole :=
  (whole_emit c (.state s)).trans (and_iff_left trivial)

@[simp] theorem whole_setTimeout (c : Connection) (t : Option ℕ) :
    (c.setTimeout t).Whole ↔ c.Whole := Iff.rfl

@[simp] theorem whole_setConnect (c : Connection) (t : Option ℕ) :
    (c.setConnect t).Whole ↔ c.Whole := Iff.rfl

@[simp] theorem whole_setCancelPtr (c : Connection) (b : Bool) :
    (c.setCancelPtr b).Whole ↔ c.Whole := Iff.rfl

@[simp] theorem whole_setJob (c : Connection) (job : Option (List UInt8 × List UInt8)) :
    (c.setJob job).Whole ↔ c.Whole := Iff.rfl

@[simp] theorem whole_setOutgoing (c : Connection) (s : SocketEvent) :
    (c.setOutgoing s).Whole ↔ c.Whole := Iff.rfl

@[simp] theorem whole_setOutgoingAddress (c : Connection) (a : SocketAddress) :
    (c.setOutgoingAddress a).Whole ↔ c.Whole := Iff.rfl

@[simp] theorem whole_setSendPlayServer (c : Connection) :
    c.setSendPlayServer.Whole ↔ c.Whole := Iff.rfl

@[simp] theorem whole_fillInitial (c : Connection) (bytes : List UInt8) :
    (c.fillInitial bytes).Whole ↔ c.Whole := Iff.rfl

@[simp] theorem whole_mapEvent (c : Connection) (f : SocketEvent → SocketEvent) (side : Side) :
    (c.mapEvent f side).Whole ↔ c.Whole := by
  cases side <;> exact Iff.rfl

@[simp] theorem whole_setInbound (c : Connection) (s : Inbound) (side : Side) :
    (c.setInbound s side).Whole ↔ c.Whole := by
  cases side <;> exact Iff.rfl

@[simp] theorem whole_setSplice (c : Connection) (s : Splice UInt8) (d : Dir) :
    (c.setSplice s d).Whole ↔ c.Whole := by
  cases d <;> exact Iff.rfl

@[simp] theorem whole_updateTokenBucket (c : Connection) (size : ℕ) :
    (c.updateTokenBucket size).Whole ↔ c.Whole := by
  unfold updateTokenBucket
  split
  · exact (whole_emit c _).trans (and_iff_left trivial)
  · exact Iff.rfl

theorem whole_sendTo (h : c.Whole) {peer : Side} {buffer : List UInt8} {ch : SendChoice}
    (hch : buffer = accountLoginRejectPacket ∨ ¬ ch.TakesPart buffer.length) :
    (c.sendTo peer buffer ch).2.Whole := by
  rcases sendTo_cases c peer buffer ch with hs | ⟨bytes, ha, hs⟩
  · rwa [hs]
  · rw [hs]
    refine (whole_emit c _).mpr ⟨h, hch.imp_right fun hpart => ?_⟩
    exact SendChoice.accepted_of_not_takesPart hpart ha

theorem whole_rejectLogin (h : c.Whole) : (c.rejectLogin ans).Whole := by
  have hsend : (c.sendTo .client accountLoginRejectPacket ans.reject).2.Whole :=
    whole_sendTo h (.inl rfl)
  unfold rejectLogin
  simp only
  split
  · exact (whole_emit _ _).mpr ⟨hsend, trivial⟩
  · exact hsend

/-! ## The handlers -/

/-- In a callback that gets these answers, for a client at `host`, `Send` takes a part of a packet of
the handshake. -/
def ShortWrite (setup : Setup) (host : List UInt8) (ans : Answers) : Prop :=
  ans.sendInitial.TakesPart (83 + (remoteIp setup.config host).length) ∨
    ans.sendServerList.TakesPart (serverListPacket setup.config.serverList).length ∨
    ans.sendPlayServer.TakesPart 3

theorem length_vector (setup : Setup) (c : Connection) :
    (c.vector setup).length = 83 + (remoteIp setup.config c.remoteHost).length := by
  have hlen := c.initialPackets.length_eq
  unfold initialSize at hlen
  unfold vector initialPacketsVector sizeofSeed
  simp only [List.length_append, List.length_take, List.length_drop]
  omega

theorem remoteHost_updateTokenBucket (c : Connection) (size : ℕ) :
    (c.updateTokenBucket size).remoteHost = c.remoteHost := by
  rw [updateTokenBucket_eq]
  rfl

section Handlers

variable (h : c.Whole) (hshort : ¬ ShortWrite setup c.remoteHost ans)

include h hshort

theorem whole_onSocketConnectSuccess : (c.onSocketConnectSuccess setup ans).conn.Whole := by
  have hsend : (c.sendInitialPackets setup ans).2.Whole := by
    refine whole_sendTo h (.inr fun hpart => hshort (.inl ?_))
    rwa [← length_vector]
  unfold onSocketConnectSuccess
  simp only
  split_ifs <;> simp [Result.conn, h, hsend, Act.Whole]

theorem whole_connectTo (address : SocketAddress) : (c.connectTo setup ans address).conn.Whole := by
  have hconnect : (c.emit (.connect address)).Whole := (whole_emit _ _).mpr ⟨h, trivial⟩
  unfold connectTo
  cases ans.connect with
  | pending => exact hconnect
  | succeeds => exact whole_onSocketConnectSuccess hconnect hshort
  | fails =>
      unfold onSocketConnectError
      simp only
      split_ifs <;> simp [Result.conn, h, Act.Whole]

theorem whole_sendServerList : (c.sendServerList setup ans).conn.Whole := by
  have hsend : (c.sendTo .client (serverListPacket setup.config.serverList)
      ans.sendServerList).2.Whole :=
    whole_sendTo h (.inr fun hpart => hshort (.inr (.inl hpart)))
  unfold sendServerList
  simp only
  split_ifs <;> simp [Result.conn, h, hsend]

theorem whole_onCheckCredentials (username : List UInt8) (result : Bool) :
    (c.onCheckCredentials setup ans username result).conn.Whole := by
  have hhost := remoteHost_updateTokenBucket
    ((c.emit (.onCheckCredentials username result)).setCancelPtr false) 1
  unfold onCheckCredentials
  simp only
  split_ifs with hs hr hl
  · exact h
  · exact whole_rejectLogin (by simp [h, Act.Whole])
  · refine whole_sendServerList ?_ ?_
    · simp [h, Act.Whole]
    · exact fun hs => hshort (hhost ▸ hs)
  · refine whole_connectTo ?_ ?_ _
    · simp [h, Act.Whole]
    · exact fun hs => hshort (hhost ▸ hs)

theorem whole_checkCredentials (username password : List UInt8) :
    (c.checkCredentials setup ans username password).conn.Whole := by
  have hasked : (c.emit (.checkCredentials username password)).Whole :=
    (whole_emit _ _).mpr ⟨h, trivial⟩
  unfold checkCredentials
  cases ans.check with
  | throws => exact whole_rejectLogin (by simp [h, Act.Whole])
  | noDatabase => exact whole_onCheckCredentials hasked hshort username true
  | queued => exact hasked

theorem whole_loginComplete : (c.loginComplete setup ans).conn.Whole := by
  unfold loginComplete
  simp only
  split_ifs
  · simp [Result.conn, h, Act.Whole]
  · exact whole_rejectLogin (by simp [h, Act.Whole])
  · refine whole_checkCredentials ?_ ?_ _ _
    · simpa using h
    · exact hshort

theorem whole_receiveLoginPackets : (c.receiveLoginPackets setup ans).conn.Whole := by
  unfold receiveLoginPackets
  by_cases hs : c.state ≠ .initial
  · rwa [if_pos hs]
  by_cases hf : ¬ c.initialPacketsFill < initialSize
  · rwa [if_neg hs, if_pos hf]
  rw [if_neg hs, if_neg hf]
  simp only
  split
  · simpa [Result.conn] using h
  · split_ifs
    · simpa [Result.conn] using h
    · refine whole_loginComplete ?_ ?_
      · simpa using h
      · exact hshort

theorem whole_receivePlayServer : (c.receivePlayServer setup ans).conn.Whole := by
  unfold receivePlayServer
  by_cases hs : c.state ≠ .serverList
  · rwa [if_pos hs]
  by_cases hl : setup.config.serverList = []
  · rwa [if_neg hs, if_pos hl]
  by_cases hf : c.initialPacketsFill ≠ initialSize
  · rwa [if_neg hs, if_neg hl, if_pos hf]
  rw [if_neg hs, if_neg hl, if_neg hf]
  simp only
  split
  · simpa [Result.conn] using h
  · split_ifs
    · simpa [Result.conn] using h
    · split
      · simpa [Result.conn] using h
      · refine whole_connectTo ?_ ?_ _
        · simpa using h
        · exact hshort

theorem whole_receiveServerList : (c.receiveServerList ans).conn.Whole := by
  have hsend : ∀ {c' : Connection}, c'.Whole →
      (c'.sendTo .server playServerPacket ans.sendPlayServer).2.Whole :=
    fun h' => whole_sendTo h' (.inr fun hpart => hshort (.inr (.inr hpart)))
  unfold receiveServerList
  simp only
  split_ifs with hcommand
  · simp [Result.conn, h]
  · split
    · simp [Result.conn, h]
    · split_ifs
      · simp [Result.conn, h]
      · simp [Result.conn, h]
      · exact hsend (by simp [h])
      · simp only [Result.conn, whole_setState, whole_mapEvent]
        exact hsend (by simp [h])

end Handlers

/-! ## The relay -/

theorem whole_doSpliceSend (h : c.Whole) (d : Dir) (ch : SpliceChoice) :
    (doSpliceSend stock c d ch).2.1.Whole := by
  unfold doSpliceSend
  simp only
  split
  · simp [h, Act.Whole]
  · split <;> simp [h, Act.Whole]

theorem whole_sendOrDestroy (h : c.Whole) (d : Dir) (ch : SpliceChoice) :
    (sendOrDestroy stock c d ch).2.conn.Whole := by
  have hsend : (doSpliceSend stock c d ch).2.1.Whole := whole_doSpliceSend h d ch
  unfold sendOrDestroy
  split
  · rename_i heq
    rwa [heq] at hsend
  · rename_i heq
    rwa [heq] at hsend
  · rename_i heq
    rwa [heq] at hsend

theorem whole_receiveReady (h : c.Whole) (d : Dir) :
    (receiveReady stock c d ans).2.conn.Whole := by
  unfold receiveReady
  simp only
  split
  · simp [Result.conn, h, Act.Whole]
  · split
    · exact whole_sendOrDestroy (by simp [h, Act.Whole]) d _
    · simp [Result.conn, h, Act.Whole]
    · simp [Result.conn, h, Act.Whole]
    · split_ifs <;> simp [Result.conn, h, Act.Whole]
    · simp [Result.conn, h, Act.Whole]

theorem whole_relayReady (h : c.Whole) (side : Side) (events : Events) :
    (relayReady stock c side events ans).2.conn.Whole := by
  have hsent : (if events.write then sendOrDestroy stock c side.into ans.sendReady
      else (stock, .alive c)).2.conn.Whole := by
    split_ifs
    · exact whole_sendOrDestroy h _ _
    · exact h
  unfold relayReady
  simp only
  split
  · rename_i heq
    rw [heq] at hsent
    split_ifs
    · exact whole_receiveReady hsent _
    · exact hsent
  · rename_i heq
    rwa [heq] at hsent

/-! ## The callbacks -/

section Callbacks

variable (h : c.Whole) (hshort : ¬ ShortWrite setup c.remoteHost ans)

include h hshort

theorem whole_onIncomingReady (events : Events) :
    (c.onIncomingReady setup stock events ans).2.conn.Whole := by
  unfold onIncomingReady
  split_ifs
  · simpa [Result.conn] using h
  · exact h
  · exact h
  · exact h
  · exact whole_receiveLoginPackets h hshort
  · exact h
  · exact whole_receivePlayServer h hshort
  · exact whole_relayReady h .client events

theorem whole_onOutgoingReady (events : Events) :
    (c.onOutgoingReady stock events ans).2.conn.Whole := by
  unfold onOutgoingReady
  split_ifs
  · exact h
  · exact h
  · simpa [Result.conn] using h
  · exact whole_receiveServerList h hshort
  · exact h
  · exact whole_relayReady h .server events

/-- **A callback without a short write** leaves the packets whole. -/
theorem whole_dispatch {e : Event} (hd : dispatch setup stock c ans e = some (stock', r)) :
    r.conn.Whole := by
  cases e with
  | incomingReady events =>
      have hr : (c.onIncomingReady setup stock events ans).2.conn.Whole :=
        whole_onIncomingReady h hshort events
      simp only [dispatch] at hd
      split_ifs at hd
      rwa [Option.some.inj hd] at hr
  | outgoingReady events =>
      have hr : (c.onOutgoingReady stock events ans).2.conn.Whole :=
        whole_onOutgoingReady h hshort events
      simp only [dispatch] at hd
      split_ifs at hd
      rwa [Option.some.inj hd] at hr
  | timeout =>
      simp only [dispatch] at hd
      split_ifs at hd
      cases hd
      simpa [onTimeout, Result.conn] using h
  | connectSuccess =>
      simp only [dispatch] at hd
      split_ifs at hd
      cases hd
      exact whole_onSocketConnectSuccess h hshort
  | connectError =>
      simp only [dispatch] at hd
      split_ifs at hd
      cases hd
      unfold onSocketConnectError
      split_ifs <;> simp [Result.conn, h, Act.Whole]
  | checkDone result =>
      simp only [dispatch] at hd
      split at hd
      · cases hd
      · cases hd
        refine whole_onCheckCredentials ?_ ?_ _ result
        · exact h
        · exact hshort

end Callbacks

theorem whole_new (remoteHost : List UInt8) (perClient : Option UInt64) :
    (new remoteHost perClient).Whole := by
  simp [Whole, new, Act.Whole]

theorem whole_destructor (h : c.Whole) : (c.destructor stock).2.Whole := by
  refine List.forall_mem_append.mpr ⟨h, fun a ha => ?_⟩
  have hquiet := quiet_destructorLog c a ha
  cases a with
  | send peer buffer accepted => cases hquiet
  | _ => trivial

/-! ## The three senders -/

/-- If the connection survives, the packet was taken as a whole. -/
def SendsWhole (c : Connection) (peer : Side) (buffer : List UInt8) (r : Result) : Prop :=
  ∀ c', r = .alive c' → .send peer buffer buffer ∈ c'.log.drop c.log.length

theorem sendsWhole_destroyed (c c' : Connection) (peer : Side) (buffer : List UInt8) :
    SendsWhole c peer buffer (.destroyed c') := fun _ he => Result.noConfusion he

theorem sendsWhole_alive_iff {c' : Connection} {peer : Side} {buffer bytes : List UInt8}
    {more : List Act} (hlog : c'.log = c.log ++ (.send peer buffer bytes :: more))
    (hmore : ∀ a ∈ more, a ≠ .send peer buffer buffer) :
    SendsWhole c peer buffer (.alive c') ↔ bytes = buffer := by
  have hdrop : c'.log.drop c.log.length = .send peer buffer bytes :: more := by
    rw [hlog, List.drop_left]
  constructor
  · intro h
    have hmem := h c' rfl
    rw [hdrop] at hmem
    rcases List.mem_cons.mp hmem with he | hm
    · exact (Act.send.inj he).2.2.symm
    · exact (hmore _ hm rfl).elim
  · rintro rfl c'' he
    obtain rfl := Result.alive.inj he
    rw [hdrop]
    exact List.mem_cons_self

/-- `SendInitialPackets`. -/
theorem onSocketConnectSuccess_sendsWhole_iff (hs : c.state = .connecting)
    (hf : c.initialPacketsFill = initialSize) :
    SendsWhole c .server (c.vector setup) (c.onSocketConnectSuccess setup ans) ↔
      ¬ ans.sendInitial.TakesPart (c.vector setup).length := by
  cases ha : ans.sendInitial.accepted (c.vector setup) with
  | none =>
      rw [onSocketConnectSuccess_of_none hs hf ha]
      exact iff_of_true (sendsWhole_destroyed _ _ _ _) (SendChoice.not_takesPart_of_none ha)
  | some bytes =>
      rw [onSocketConnectSuccess_of_some hs hf ha, ← SendChoice.eq_iff_not_takesPart ha]
      split
      · exact sendsWhole_alive_iff (List.append_assoc _ _ [_]) (by simp)
      · exact sendsWhole_alive_iff (List.append_assoc _ _ [_]) (by simp)

/-- `SendServerList`. -/
theorem sendServerList_sendsWhole_iff (hf : c.initialPacketsFill = initialSize)
    (hl : setup.config.serverList ≠ []) :
    SendsWhole c .client (serverListPacket setup.config.serverList) (c.sendServerList setup ans) ↔
      ¬ ans.sendServerList.TakesPart (serverListPacket setup.config.serverList).length := by
  cases ha : ans.sendServerList.accepted (serverListPacket setup.config.serverList) with
  | none =>
      rw [sendServerList_of_none hf hl ha]
      exact iff_of_true (sendsWhole_destroyed _ _ _ _) (SendChoice.not_takesPart_of_none ha)
  | some bytes =>
      rw [sendServerList_of_some hf hl ha, ← SendChoice.eq_iff_not_takesPart ha]
      exact sendsWhole_alive_iff (List.append_assoc _ [_] [_]) (by simp)

/-- The answer of `ReceiveServerList`, when a list is there. -/
theorem receiveServerList_sendsWhole_iff (h : Reads ans) (hlist : HoldsList c.server.queue) :
    SendsWhole c .server playServerPacket (c.receiveServerList ans) ↔
      ¬ ans.sendPlayServer.TakesPart playServerPacket.length := by
  cases ha : ans.sendPlayServer.accepted playServerPacket with
  | none =>
      have hfails : ans.sendPlayServer = .fails := by
        cases hch : ans.sendPlayServer with
        | fails => rfl
        | all | short n => rw [hch] at ha; cases ha
      obtain ⟨c', hr⟩ : ∃ c', c.receiveServerList ans = .destroyed c' :=
        receiveServerList_destroyed fun hboth => hboth.2 hfails
      rw [hr]
      exact iff_of_true (sendsWhole_destroyed _ _ _ _) (SendChoice.not_takesPart_of_none ha)
  | some bytes =>
      have hsend : ans.sendPlayServer ≠ .fails := by
        intro hfails
        rw [hfails] at ha
        cases ha
      rw [← SendChoice.eq_iff_not_takesPart ha]
      rcases receiveServerList_cases (c := c) ans with
        ⟨s, -, hr⟩ | ⟨hi, lo, body, rest, bytes', hq, hsize, hbody, hsent, hr⟩
      · obtain ⟨sent, hr'⟩ := receiveServerList_of_holdsList h hlist hsend
        cases hr.symm.trans hr'
      · rw [hr]
        obtain rfl : bytes' = bytes := Option.some.inj (hsent.symm.trans ha)
        exact sendsWhole_alive_iff (List.append_assoc _ [_] [_]) (by simp)

end Connection

namespace Instance

open Connection

variable {setup : Setup} {inst : Instance} {inputs : List Input}

/-- Along runs without a short write the packets are whole. -/
theorem whole_run
    (hD : Machine.Along (step setup)
      (Meets fun c _ ans => ¬ ShortWrite setup c.remoteHost ans) {} inputs)
    (h : Run setup inputs inst) : Holds Whole Whole inst := by
  refine dispatches_along whole_new (fun {c} side bytes hc => ?_)
    (fun {stock c ans e stock' r} _ _ _ hc hshort hd => ?_) whole_destructor hD h
  · exact (whole_setInbound c _ side).mpr hc
  · have hr := whole_dispatch hc hshort hd
    cases r <;> exact hr

/-- **Short writes.** Along every run in which `Send` takes no part of a packet of the handshake, every
packet that a connection has sent was taken as a whole, so that what follows it follows a whole packet.
Each of the three senders, in the states in which it is reached, goes on after a whole packet only
exactly if `Send` does not take a part of it. -/
theorem short_write_iff (setup : Setup) (inputs : List Input) (inst : Instance)
    (h : Run setup inputs inst) :
    (Machine.Along (step setup) (Meets fun c _ ans => ¬ ShortWrite setup c.remoteHost ans) {}
        inputs →
      ∀ id c, inst.conns id = .live c ∨ inst.conns id = .gone c →
        ∀ peer buffer accepted, .send peer buffer accepted ∈ c.log →
          buffer ≠ accountLoginRejectPacket → accepted = buffer) ∧
    ∀ id c (ans : Answers), inst.conns id = .live c →
      (c.state = .connecting →
        (SendsWhole c .server (c.vector setup) (c.onSocketConnectSuccess setup ans) ↔
          ¬ ∃ n, ans.sendInitial = .short n ∧ n + 1 < (c.vector setup).length)) ∧
      (c.state = .checkCredentials → setup.config.serverList ≠ [] →
        (SendsWhole c .client (serverListPacket setup.config.serverList)
            (c.sendServerList setup ans) ↔
          ¬ ∃ n, ans.sendServerList = .short n ∧
            n + 1 < (serverListPacket setup.config.serverList).length)) ∧
      (c.state = .sendPlayServer → Reads ans → HoldsList c.server.queue →
        (SendsWhole c .server playServerPacket (c.receiveServerList ans) ↔
          ¬ ∃ n, ans.sendPlayServer = .short n ∧ n + 1 < playServerPacket.length)) := by
  refine ⟨fun hD id c hc peer buffer accepted hmem hne => ?_, fun id c ans hc => ⟨?_, ?_, ?_⟩⟩
  · have hwhole : c.Whole := by
      rcases hc with hc | hc
      · exact (whole_run hD h).live hc
      · exact (whole_run hD h).gone hc
    exact (hwhole _ hmem).resolve_left hne
  · intro hs
    exact onSocketConnectSuccess_sendsWhole_iff hs
      (((good_run h).live hc).full fun he => State.noConfusion (hs.symm.trans he))
  · intro hs hl
    exact sendServerList_sendsWhole_iff
      (((good_run h).live hc).full fun he => State.noConfusion (hs.symm.trans he)) hl
  · intro hs hreads hlist
    exact receiveServerList_sendsWhole_iff hreads hlist

/-- `Send` takes all there is. -/
def sendsAll : Input → Bool
  | .event _ _ ans =>
    decide (ans.sendInitial = .all ∧ ans.sendServerList = .all ∧ ans.sendPlayServer = .all)
  | _ => true

theorem meets_of_sendsAll {input : Input} (h : sendsAll input = true) (inst : Instance) :
    Meets (fun c _ ans => ¬ ShortWrite sampleListed c.remoteHost ans) inst input := by
  rintro id e ans c rfl - hshort
  obtain ⟨h₁, h₂, h₃⟩ := of_decide_eq_true h
  rcases hshort with ⟨n, hn, -⟩ | ⟨n, hn, -⟩ | ⟨n, hn, -⟩
  · cases h₁.symm.trans hn
  · cases h₂.symm.trans hn
  · cases h₃.symm.trans hn

/-- A handshake with the list, in which all writes are whole. -/
theorem short_write_of_sample :
    ∃ inst c, Run sampleListed sampleChosen inst ∧ inst.conns 0 = .live c ∧
      ∀ peer buffer accepted, .send peer buffer accepted ∈ c.log →
        buffer ≠ accountLoginRejectPacket → accepted = buffer := by
  obtain ⟨inst, c, h, hc⟩ : ∃ inst c, Run sampleListed sampleChosen inst ∧
      inst.conns 0 = .live c := ⟨_, _, rfl, rfl⟩
  refine ⟨inst, c, h, hc, (short_write_iff sampleListed sampleChosen inst h).1 ?_ 0 c (.inl hc)⟩
  have hsends : ∀ input ∈ sampleChosen, sendsAll input = true := List.all_eq_true.mp rfl
  exact Machine.along_of_forall (fun input hi => meets_of_sendsAll (hsends input hi)) _

/-- `Send` takes one byte of each packet. -/
def sampleShort : List Input :=
  sampleCheck ++ [.event 0 (.checkDone true) { sendServerList := .short 0 },
    .arrive 0 .client [0xa0, 0, 0],
    .event 0 (.incomingReady { read := true }) { read := .upTo 2 },
    .event 0 .connectSuccess { sendInitial := .short 0 }, .arrive 0 .server sampleList,
    .event 0 (.outgoingReady { read := true })
      { readCommand := .upTo 0, readLength := .upTo 1, discard := [.upTo 1023],
        sendPlayServer := .short 0 },
    .arrive 0 .client [9], .event 0 (.incomingReady { read := true })
      { receive := .upTo 9, sendReceived := .upTo 9 }]

/-- **Truncated packets**: the connection is in `READY`, the client has one byte of the list, and the
game server has one byte of the login and one of the answer, followed by the client's next byte. -/
theorem truncated_packets_relayed :
    ∃ inst c, Run sampleListed sampleShort inst ∧ inst.conns 0 = .live c ∧ c.state = .ready ∧
      written .client c.log = [0xa8] ∧ written .server c.log = [0xef, 0xa0, 9] :=
  ⟨_, _, rfl, rfl, rfl, rfl, rfl⟩

end Instance

end UoLogin
