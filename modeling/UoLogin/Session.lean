import UoLogin.Connection.Log
import UoLogin.Instance

set_option autoImplicit false

/-!
# The session of a client

What a connection is for, seen from outside: `Session` lists the visible acts of a connection (the
check of the credentials and its verdict, the states, the connect, all writes, and the calls of the
relay) that lead to each state, and `Ended` those of a connection that is over. Metrics, accounting
and shutdowns are not visible.

* **`sessions_run`**: the daemon refines this. The trace of every live connection is a session of its
  state, that of every past one has ended.
-/

namespace UoLogin

/-- The acts that a session is about. -/
def Act.visible (a : Act) : Bool := !a.quiet

theorem filter_visible_quiet {acts : List Act} (h : Quiet acts) : acts.filter Act.visible = [] := by
  refine List.filter_eq_nil_iff.mpr fun a ha => ?_
  rw [Act.visible, h a ha]
  exact Bool.false_ne_true

/-- The username and the password in the login packets. -/
def credentials (packets : List UInt8) : List UInt8 × List UInt8 :=
  (username (packets.drop sizeofSeed), password (packets.drop sizeofSeed))

/-- **The visible acts up to a state**, for a client at `host` that sent `packets`, with the bytes
that the relay has written to each peer. -/
inductive Session (setup : Setup) (host packets : List UInt8) :
    State → (Side → List UInt8) → List Act → Prop
  | initial : Session setup host packets .initial (fun _ => []) []
  | check (hw : Connection.WellFormed setup.util packets) :
      Session setup host packets .checkCredentials (fun _ => [])
        [.state .checkCredentials, .checkCredentials (credentials packets).1 (credentials packets).2]
  | serverList (hl : setup.config.serverList ≠ []) {sent : Side → List UInt8} {t : List Act}
      {bytes : List UInt8} (h : Session setup host packets .checkCredentials sent t) :
      Session setup host packets .serverList sent (t ++
        [.onCheckCredentials (credentials packets).1 true,
          .send .client (serverListPacket setup.config.serverList) bytes, .state .serverList])
  | direct (hl : setup.config.serverList = []) {sent : Side → List UInt8} {t : List Act}
      (h : Session setup host packets .checkCredentials sent t) :
      Session setup host packets .connecting sent (t ++
        [.onCheckCredentials (credentials packets).1 true, .state .connecting,
          .connect setup.config.gameServer])
  | chosen {server : GameServerConfig} (hs : server ∈ setup.config.serverList)
      {sent : Side → List UInt8} {t : List Act} (h : Session setup host packets .serverList sent t) :
      Session setup host packets .connecting sent (t ++ [.state .connecting, .connect server.address])
  | sendPlayServer (hl : setup.config.serverList ≠ []) {sent : Side → List UInt8} {t : List Act}
      {bytes : List UInt8} (h : Session setup host packets .connecting sent t) :
      Session setup host packets .sendPlayServer sent (t ++
        [.send .server (initialPacketsVector setup.config host packets) bytes, .state .sendPlayServer])
  | ready (hl : setup.config.serverList = []) {sent : Side → List UInt8} {t : List Act}
      {bytes : List UInt8} (h : Session setup host packets .connecting sent t) :
      Session setup host packets .ready sent (t ++
        [.send .server (initialPacketsVector setup.config host packets) bytes, .state .ready])
  | played {sent : Side → List UInt8} {t : List Act} {bytes : List UInt8}
      (h : Session setup host packets .sendPlayServer sent t) :
      Session setup host packets .ready sent (t ++
        [.send .server playServerPacket bytes, .state .ready])
  | sends {d : Dir} {size : ℕ} (hz : size ≠ 0) {bytes : List UInt8} {sent sent' : Side → List UInt8}
      (hd : sent' d.sink = sent d.sink ++ bytes) (ho : ∀ peer, peer ≠ d.sink → sent' peer = sent peer)
      {t : List Act} (h : Session setup host packets .ready sent t) :
      Session setup host packets .ready sent' (t ++ [.sendTo d true size, .spliced d.sink bytes])
  | receives {d : Dir} {result : ReceiveResult} (hr : result ≠ .pipeFull)
      {sent : Side → List UInt8} {t : List Act} (h : Session setup host packets .ready sent t) :
      Session setup host packets .ready sent (t ++ [.receiveFrom d 0, .received d result])

theorem Session.eq_nil {setup : Setup} {host packets : List UInt8} {sent : Side → List UInt8}
    {t : List Act} (h : Session setup host packets .initial sent t) : t = [] := by
  cases h
  rfl

theorem Session.listed {setup : Setup} {host packets : List UInt8} {sent : Side → List UInt8}
    {t : List Act} (h : Session setup host packets .sendPlayServer sent t) :
    setup.config.listed = true := by
  cases h with
  | sendPlayServer hl h => exact Config.listed_eq_true hl

/-- What may follow a refusal. -/
inductive Refusal : List Act → Prop
  | skipped : Refusal []
  | sent {bytes : List UInt8} (h : bytes <+: accountLoginRejectPacket) :
      Refusal [.send .client accountLoginRejectPacket bytes]

/-- The visible acts of a connection that is over. -/
inductive Ended (setup : Setup) (host packets : List UInt8) (sent : Side → List UInt8) :
    List Act → Prop
  | stopped {s : State} {t : List Act} (h : Session setup host packets s sent t) :
      Ended setup host packets sent t
  | malformed {t : List Act} (h : Refusal t) : Ended setup host packets sent t
  | throws {t tail : List Act} (h : Session setup host packets .checkCredentials sent t)
      (ht : Refusal tail) : Ended setup host packets sent (t ++ tail)
  | rejected {t tail : List Act} (h : Session setup host packets .checkCredentials sent t)
      (ht : Refusal tail) :
      Ended setup host packets sent (t ++ .onCheckCredentials (credentials packets).1 false :: tail)
  | unlisted (hl : setup.config.serverList ≠ []) {t : List Act}
      (h : Session setup host packets .checkCredentials sent t) :
      Ended setup host packets sent (t ++ [.onCheckCredentials (credentials packets).1 true])
  | closed {d : Dir} {taken : List UInt8} {t : List Act}
      (h : Session setup host packets .ready sent t) :
      Ended setup host packets sent (t ++ [.sourceClosed d taken taken])
  | receiveThrows {d : Dir} {t : List Act} (h : Session setup host packets .ready sent t) :
      Ended setup host packets sent (t ++ [.receiveFrom d 0])

theorem Rejection.refusal {tail : List Act} (h : Rejection tail) :
    Refusal (tail.filter Act.visible) := by
  cases h with
  | skipped => exact .skipped
  | sent h => exact .sent h

namespace Connection

variable {setup : Setup} {c c' : Connection} {r : Result}

/-- The visible acts so far. -/
def trace (c : Connection) : List Act := c.log.filter Act.visible

theorem trace_of_log {acts shown : List Act} (h : c'.log = c.log ++ acts)
    (hs : acts.filter Act.visible = shown) : c'.trace = c.trace ++ shown := by
  unfold trace
  rw [h, List.filter_append, hs]

theorem trace_emit (c : Connection) {a : Act} (h : a.visible = true) :
    (c.emit a).trace = c.trace ++ [a] :=
  trace_of_log rfl (by rw [List.filter_singleton, h]; rfl)

theorem trace_quiet {acts : List Act} (h : Quiet acts) : (c.emits acts).trace = c.trace :=
  (trace_of_log rfl (filter_visible_quiet h)).trans (List.append_nil _)

theorem trace_refused {quiet tail : List Act} (hq : Quiet quiet) :
    (c.emits (quiet ++ tail)).trace = c.trace ++ tail.filter Act.visible := by
  refine trace_of_log rfl ?_
  rw [List.filter_append, filter_visible_quiet hq, List.nil_append]

/-- What the relay has written to a peer. -/
def relayed (c : Connection) : Side → List UInt8
  | .client => c.spliceOutIn.delivered
  | .server => c.spliceInOut.delivered

theorem relayed_sink (c : Connection) (d : Dir) : c.relayed d.sink = (c.splice d).delivered := by
  cases d <;> rfl

theorem relayed_into (c : Connection) (peer : Side) :
    c.relayed peer = (c.splice peer.into).delivered := by
  cases peer <;> rfl

theorem relayed_fresh (h : ∀ d, c.splice d = {}) : c.relayed = fun _ => [] := by
  funext side
  cases side with
  | client => exact congrArg Splice.delivered (h .outIn)
  | server => exact congrArg Splice.delivered (h .inOut)

/-- The session of a connection, with the state and the trace `t` given. -/
abbrev InSession (setup : Setup) (c : Connection) (s : State) (t : List Act) : Prop :=
  Session setup c.remoteHost c.initialPackets.bytes s c.relayed t

/-- A live connection is in a session, and the check on its way is that of the session. -/
structure Traced (setup : Setup) (c : Connection) : Prop where
  session : c.InSession setup c.state c.trace
  job : ∀ job, c.job = some job → job = credentials c.initialPackets.bytes

/-- A past connection had a session. -/
def Past (setup : Setup) (c : Connection) : Prop :=
  Ended setup c.remoteHost c.initialPackets.bytes c.relayed c.trace

theorem past_of {t : List Act} (h : Ended setup c.remoteHost c.initialPackets.bytes c.relayed t)
    (ht : c.trace = t) : Past setup c := by
  unfold Past
  rw [ht]
  exact h

abbrev Traces (setup : Setup) : Result → Prop :=
  Result.Satisfies (Traced setup) (Past setup) fun _ => Past setup

theorem Establishes.traces (h : Establishes setup c r) (hp : c.sendPlayServer = setup.config.listed)
    (hj : c.job = none) (hc : c.InSession setup .connecting c.trace) : Traces setup r := by
  have hjob : ∀ job, c.job = some job → job = credentials c.initialPackets.bytes :=
    fun job he => nomatch hj.symm.trans he
  cases h with
  | failed => exact .stopped hc
  | @sendPlayServer bytes hb hplay =>
      refine ⟨?_, hjob⟩
      have ht : ((c.connected setup bytes).setState .sendPlayServer).trace =
          c.trace ++ [.send .server (c.vector setup) bytes, .state .sendPlayServer] :=
        trace_of_log (List.append_assoc _ _ _) rfl
      rw [ht]
      refine .sendPlayServer (fun hl => ?_) hc
      rw [Config.listed_eq_false hl] at hp
      exact nomatch hp.symm.trans hplay
  | @ready bytes hb hplay =>
      refine ⟨?_, hjob⟩
      have ht : (((c.connected setup bytes).mapEvent .scheduleRead .client).setState .ready).trace =
          c.trace ++ [.send .server (c.vector setup) bytes, .state .ready] :=
        trace_of_log (List.append_assoc _ _ _) rfl
      rw [ht]
      refine .ready (Classical.byContradiction fun hl => ?_) hc
      rw [Config.listed_eq_true hl] at hp
      exact nomatch hp.symm.trans hplay

theorem Connects.traces {address : SocketAddress} (h : Connects setup address c r)
    (hs : c.state = .connecting) (hp : c.sendPlayServer = setup.config.listed) (hj : c.job = none)
    (hc : c.InSession setup .connecting (c.trace ++ [.connect address])) : Traces setup r := by
  have ht : (c.emit (.connect address)).trace = c.trace ++ [.connect address] :=
    trace_of_log rfl rfl
  rw [← ht] at hc
  cases h with
  | pending =>
      refine ⟨?_, fun job he => nomatch hj.symm.trans he⟩
      rw [show ((c.emit (.connect address)).setConnect (some 10)).state = .connecting from hs]
      exact hc
  | failed =>
      have hq : Quiet [.metric .serverConnectionsFailed 1] := quiet_singleton rfl
      exact past_of (.stopped hc) (trace_quiet hq)
  | now h => exact h.traces hp hj hc

/-- The session after a positive verdict. -/
theorem Accepts.traces {t : List Act} (h : Accepts setup c r) (hp : c.sendPlayServer = false)
    (hj : c.job = none) (hc : c.InSession setup .checkCredentials t)
    (ht : c.trace = t ++ [.onCheckCredentials (credentials c.initialPackets.bytes).1 true]) :
    Traces setup r := by
  cases h with
  | failed hl => exact past_of (.unlisted hl hc) ht
  | @listed hl bytes =>
      refine ⟨?_, fun job he => nomatch hj.symm.trans he⟩
      have ht' : (c.listed setup bytes).trace = c.trace ++
          [.send .client (serverListPacket setup.config.serverList) bytes, .state .serverList] :=
        trace_of_log (List.append_assoc _ _ _) rfl
      rw [ht', ht, List.append_assoc]
      exact .serverList hl hc
  | direct hl h =>
      refine h.traces rfl (hp.trans (Config.listed_eq_false hl).symm) hj ?_
      have ht' : (c.direct setup).trace = c.trace ++ [.state .connecting] := trace_of_log rfl rfl
      rw [ht', ht, List.append_assoc, List.append_assoc]
      exact .direct hl hc

theorem Judges.traces {result : Bool}
    (h : Judges setup (credentials c.initialPackets.bytes).1 c result r)
    (hp : c.sendPlayServer = false) (hj : c.job = none)
    (hc : c.InSession setup .checkCredentials c.trace) : Traces setup r := by
  have ht : ∀ v, (c.judged (credentials c.initialPackets.bytes).1 v).trace =
      c.trace ++ [.onCheckCredentials (credentials c.initialPackets.bytes).1 v] := fun v =>
    trace_of_log rfl rfl
  cases h with
  | @rejected quiet tail hq htail =>
      refine past_of (.rejected hc htail.refusal) ?_
      rw [trace_refused hq, ht, List.append_assoc]
      rfl
  | accepted hq h =>
      exact h.traces hp hj hc ((trace_quiet hq).trans (ht true))

/-- The check is that of the bytes in the buffer, which are well formed. -/
theorem inSession_checking (hw : WellFormed setup.util c.initialPackets.bytes) (ht : c.trace = [])
    (hr : c.relayed = fun _ => []) :
    c.checking.InSession setup .checkCredentials c.checking.trace := by
  have ht' : c.checking.trace = c.trace ++ [.state .checkCredentials,
      .checkCredentials (username c.login) (password c.login)] :=
    trace_of_log (List.append_assoc _ _ _) rfl
  have h : Session setup c.remoteHost c.initialPackets.bytes .checkCredentials (fun _ => []) _ :=
    .check hw
  rw [← hr] at h
  rw [ht', ht]
  exact h

theorem Completes.traces (h : Completes setup c r) (hp : c.sendPlayServer = false)
    (hj : c.job = none) (ht : c.trace = []) (hr : c.relayed = fun _ => []) : Traces setup r := by
  cases h with
  | malformed hq htail =>
      refine past_of (.malformed htail.refusal) ?_
      rw [trace_refused hq]
      exact congrArg (· ++ _) ht
  | throws hw hq htail =>
      exact past_of (.throws (inSession_checking hw ht hr) htail.refusal) (trace_refused hq)
  | noDatabase hw h =>
      have h : Judges setup (credentials c.checking.initialPackets.bytes).1 c.checking true r := h
      exact h.traces hp hj (inSession_checking hw ht hr)
  | queued hw =>
      refine ⟨inSession_checking hw ht hr, fun job he => ?_⟩
      cases he
      rfl

theorem LogsIn.traces (h : LogsIn setup c r) (hi : Inv setup c) (hs : c.state = .initial)
    (hc : Traced setup c) : Traces setup r := by
  have hsession := hc.session
  rw [hs] at hsession
  have ht := hsession.eq_nil
  have hr : c.relayed = fun _ => [] :=
    relayed_fresh (hi.fresh fun he => nomatch hs.symm.trans he)
  have hres := hi.resources
  rw [hs] at hres
  have hp : c.sendPlayServer = false := congrArg Resources.play hres
  have hj : c.job = none := Option.isNone_iff_eq_none.mp (by
    rw [← Option.not_isSome, show c.job.isSome = false from congrArg Resources.job hres]
    rfl)
  cases h with
  | failed => exact .stopped hc.session
  | @short bytes rest hq hlt =>
      refine ⟨?_, fun job he => nomatch hj.symm.trans he⟩
      rw [show (c.filled _ _).state = .initial from hs, show (c.filled _ _).trace = [] from ht]
      have h : Session setup c.remoteHost (c.filled bytes rest).initialPackets.bytes .initial
          (fun _ => []) [] := .initial
      rw [← hr] at h
      exact h
  | complete hq heq h => exact h.traces hp hj ht hr

theorem Plays.traces (h : Plays setup c r) (hl : setup.config.serverList ≠ []) (hj : c.job = none)
    (hc : c.InSession setup .serverList c.trace) : Traces setup r := by
  cases h with
  | failed hs => exact .stopped hc
  | @connects packet rest server hq hlen hs r h =>
      refine h.traces rfl (Config.listed_eq_true hl).symm hj ?_
      have ht : (c.chosen packet rest server).trace = c.trace ++ [.state .connecting] :=
        trace_of_log rfl rfl
      rw [ht, List.append_assoc]
      exact .chosen hs hc

theorem Lists.traces (h : Lists c r) (hj : c.job = none)
    (hc : c.InSession setup .sendPlayServer c.trace) : Traces setup r := by
  cases h with
  | failed hs => exact .stopped hc
  | @played header rest bytes hq hlen hle =>
      refine ⟨?_, fun job he => nomatch hj.symm.trans he⟩
      have ht : (c.played header rest bytes).trace =
          c.trace ++ [.send .server playServerPacket bytes, .state .ready] :=
        trace_of_log (List.append_assoc _ _ _) rfl
      rw [ht]
      exact .played hc

/-! ## The relay -/

section Relay

variable {d : Dir} {ch : SpliceChoice} {host packets : List UInt8}

/-- A frame of the other direction keeps what that direction has relayed. -/
theorem Frame.relayed (h : Frame d c c') {peer : Side} (hp : peer ≠ d.sink) :
    c'.relayed peer = c.relayed peer := by
  have hne : peer.into ≠ d := fun he => hp (by rw [← he, peer.sink_into])
  have hlane := congrArg (fun l : Lane => l.splice.delivered) (h.lane peer.into hne)
  cases peer <;> exact hlane

theorem Sends.session (h : Sends c d ch r) (hz : (c.splice d).size ≠ 0)
    (hc : Session setup host packets .ready c.relayed c.trace) :
    Session setup host packets .ready r.conn.relayed r.conn.trace := by
  obtain ⟨bytes, hlog, hd, -⟩ := h.log
  rw [trace_of_log hlog rfl]
  refine .sends hz ?_ (fun peer hp => h.frame.relayed hp) hc
  rw [relayed_sink, relayed_sink]
  exact hd

/-- The relay's results, for a session that goes on or has ended. -/
abbrev Continues (setup : Setup) (host packets : List UInt8) : Result → Prop :=
  Result.Satisfies (fun c => Session setup host packets .ready c.relayed c.trace)
    (fun c => Ended setup host packets c.relayed c.trace)
    fun _ c => Ended setup host packets c.relayed c.trace

theorem Continues.of_session (h : Session setup host packets .ready r.conn.relayed r.conn.trace) :
    Continues setup host packets r := by
  cases r with
  | alive c => exact h
  | destroyed c => exact .stopped h
  | crashed why c => exact .stopped h

theorem relayed_emit (c : Connection) (a : Act) : (c.emit a).relayed = c.relayed := by
  funext peer
  cases peer <;> rfl

/-- Receiving relays nothing. -/
theorem relayed_received {s : Splice UInt8} (bytes rest : List UInt8) (result : ReceiveResult)
    (hd : s.delivered = (c.splice d).delivered) :
    (c.received d s bytes rest result).relayed = c.relayed := by
  funext peer
  rw [relayed_into, relayed_into]
  by_cases hp : peer.into = d
  · rw [hp, splice_received, hd]
  · rw [splice_received_of_ne hp]

theorem Receives.continues (h : Receives c d ch r) (hb : (c.splice d).delivered = (c.splice d).taken)
    (hc : Session setup host packets .ready c.relayed c.trace) : Continues setup host packets r := by
  have hreceived : ∀ {s bytes rest result}, s.delivered = (c.splice d).delivered →
      result ≠ .pipeFull → Session setup host packets .ready
        (c.received d s bytes rest result).relayed (c.received d s bytes rest result).trace := by
    intro s bytes rest result hd hr
    rw [trace_of_log (log_received d s bytes rest result c) rfl, relayed_received bytes rest result hd]
    exact .receives hr hc
  cases h with
  | throws =>
      have htrace : ((c.setSplice (c.splice d).clearReceived d).emit (.receiveFrom d 0)).trace =
          c.trace ++ [.receiveFrom d 0] := by
        rw [trace_emit _ rfl]
        unfold trace
        rw [log_setSplice]
      have hrelayed : ((c.setSplice (c.splice d).clearReceived d).emit (.receiveFrom d 0)).relayed =
          c.relayed := by
        funext peer
        cases d <;> cases peer <;> rfl
      change Ended setup host packets (Connection.relayed _) (Connection.trace _)
      simp only [htrace, hrelayed]
      exact .receiveThrows hc
  | @got s bytes rest hq ht hd hz hp n r h =>
      have hemit : ((c.received d s bytes rest .ok).emit (.metric (bytesMetric d) n)).trace =
          (c.received d s bytes rest .ok).trace := trace_quiet (quiet_singleton rfl)
      refine .of_session (h.session ?_ ?_)
      · rw [splice_emit, splice_received]
        exact hz
      · rw [hemit]
        exact hreceived hd nofun
  | blocked hq ht hd hz => exact hreceived hd nofun
  | @closed s rest hq ht hd =>
      have htrace : (((c.received d s [] rest .socketClosed).emit
          (.sourceClosed d s.taken s.delivered)).emit (.shutdownWrite d.sink)).trace =
            (c.received d s [] rest .socketClosed).trace ++ [.sourceClosed d s.taken s.taken] := by
        have hquiet : Quiet [.shutdownWrite d.sink] := quiet_singleton rfl
        refine (trace_quiet hquiet).trans ?_
        rw [trace_emit _ rfl, hd, hb, ht]
      have hsession : Session setup host packets .ready (c.received d s [] rest .socketClosed).relayed
          (c.received d s [] rest .socketClosed).trace := hreceived hd nofun
      change Ended setup host packets (Connection.relayed _) (Connection.trace _)
      rw [htrace, relayed_emit, relayed_emit]
      exact .closed hsession
  | failed hq ht hd => exact .stopped (hreceived hd nofun)

theorem Relays.continues {side : Side} {events : Events} {ans : Answers}
    (h : Relays c side events ans r) (hread : events.read = true →
      (c.splice side.outOf).delivered = (c.splice side.outOf).taken)
    (hc : Session setup host packets .ready c.relayed c.trace) : Continues setup host packets r := by
  have hflush : ∀ {c'}, Flushes c side events ans c' →
      Session setup host packets .ready c'.relayed c'.trace := by
    intro c' hf
    cases hf with
    | skipped => exact hc
    | sent hw hz h => exact h.session hz hc
  cases h with
  | failed hw hz h => exact .of_session (h.session hz hc)
  | sent h => exact hflush h
  | received h hr h' =>
      refine h'.continues ?_ (hflush h)
      rw [h.splice_outOf]
      exact hread hr

end Relay

theorem Relays.traces {side : Side} {events : Events} {ans : Answers}
    (h : Relays c side events ans r) (hread : events.read = true →
      (c.splice side.outOf).delivered = (c.splice side.outOf).taken)
    (hs : c.state = .ready) (hj : c.job = none) (hc : c.InSession setup .ready c.trace) :
    Traces setup r := by
  have hcore := h.core
  have hsession := h.continues hread hc
  have hhost : r.conn.remoteHost = c.remoteHost := congrArg Core.remoteHost hcore
  have hpackets : r.conn.initialPackets = c.initialPackets := congrArg Core.initialPackets hcore
  have hstate : r.conn.state = .ready := (congrArg Core.state hcore).trans hs
  have hjob : r.conn.job = none := (congrArg Core.job hcore).trans hj
  rw [← hhost, ← hpackets] at hsession
  cases r with
  | alive c' =>
      refine ⟨?_, fun job he => nomatch hjob.symm.trans he⟩
      rw [show c'.state = .ready from hstate]
      exact hsession
  | destroyed c' => exact hsession
  | crashed why c' => exact hsession

/-! ## The refinement -/

theorem Called.traces {stock stock' : PipeStock UInt8} {ans : Answers} {e : Event}
    (h : Called setup stock c ans e stock' r) (hi : Inv setup c) (hb : c.Books)
    (hc : Traced setup c) : Traces setup r := by
  have hsession := hc.session
  have hjob : ∀ s, c.state = s → s ≠ .checkCredentials → c.job = none := by
    intro s hs hne
    cases hj : c.job with
    | none => rfl
    | some job => exact (hne (hs.symm.trans (hi.job_iff.mp (by rw [hj]; rfl)))).elim
  have hplay : ∀ s, c.state = s → c.sendPlayServer = (resourcesIn setup.config.listed s).play := by
    intro s hs
    rw [← hs]
    exact congrArg Resources.play hi.resources
  cases h with
  | dies hq => exact past_of (.stopped hsession) (trace_quiet hq)
  | connectPending hs hl => exact .stopped hsession
  | logsIn hs h => exact h.traces hi hs hc
  | plays hs h =>
      rw [hs] at hsession
      exact h.traces (hi.mode (.inl hs)) (hjob _ hs nofun) hsession
  | lists hs h =>
      rw [hs] at hsession
      exact h.traces (hjob _ hs nofun) hsession
  | @relays side events hs hd _ _ _ he h =>
      rw [hs] at hsession
      refine h.traces (fun hr => (hb side.outOf).2 ?_) hs (hjob _ hs nofun) hsession
      refine (hi.relay hs side.outOf).read ?_
      change (c.event side.outOf.source).read = true
      rw [side.source_outOf]
      exact dispatches_read hd hr
  | establishes hs h =>
      rw [hs] at hsession
      exact h.traces (hplay _ hs) (hjob _ hs nofun) hsession
  | @judges hs job result hj _ h =>
      rw [hs] at hsession
      have h : Judges setup (credentials (c.setJob none).initialPackets.bytes).1 (c.setJob none)
          result r := by
        rw [show (c.setJob none).initialPackets = c.initialPackets from rfl, ← hc.job job hj]
        exact h
      exact h.traces (hplay _ hs) rfl hsession

theorem traced_new (remoteHost : List UInt8) (perClient : Option UInt64) :
    Traced setup (new remoteHost perClient) := by
  refine ⟨?_, nofun⟩
  have hnew : (new remoteHost perClient).relayed = fun _ => [] :=
    relayed_fresh fun d => by cases d <;> rfl
  change Session setup _ _ .initial (new remoteHost perClient).relayed []
  rw [hnew]
  exact .initial

theorem Traced.arrive (h : Traced setup c) (side : Side) (bytes : List UInt8) :
    Traced setup (c.arrive side bytes) := by
  cases side with
  | client => exact ⟨h.session, h.job⟩
  | server => exact ⟨h.session, h.job⟩

theorem trace_destructor (stock : PipeStock UInt8) (c : Connection) :
    (c.destructor stock).2.trace = c.trace :=
  trace_quiet (quiet_destructorLog c)

end Connection

namespace Instance

open Connection

variable {setup : Setup} {inst : Instance} {inputs : List Input}

/-- **Every connection has a session.** -/
theorem sessions_run (h : Run setup inputs inst) : Holds (Traced setup) (Past setup) inst :=
  holds_run traced_new (fun side bytes hc => hc.arrive side bytes)
    (fun hi hb _ hc hr => hr.traces hi hb hc) (fun hc => past_of hc (trace_destructor _ _)) h

end Instance

end UoLogin
