import UoLogin.Handshake

set_option autoImplicit false

/-!
# Deadlines

A connection that waits for a peer before it is ready should have a timer, or a connect with a timeout.
`SEND_PLAY_SERVER` has neither: the client's timer was cancelled with its choice, the connect is over,
and no timer is set for the list of the game server.

* `HasDeadline`, `hasDeadline_iff`: that is the only state without;
* `Chooses`, `ConnectsChosen`: the callbacks that lead there;
* **`deadline_iff`**: every state of a run has its deadlines exactly if no callback of it does.
-/

namespace UoLogin

/-- The states that wait for a peer before the session is ready. -/
def State.waits : State → Bool
  | .initial | .serverList | .connecting | .sendPlayServer => true
  | .checkCredentials | .ready => false

namespace Connection

variable {setup : Setup} {c c' : Connection} {r : Result} {stock stock' : PipeStock UInt8}
  {ans : Answers}

/-- The timer runs, or that of the connect. -/
def HasDeadline (c : Connection) : Prop :=
  c.state.waits = true → c.timeout.isSome = true ∨ c.connect.isSome = true

theorem Inv.hasDeadline_iff (hi : Inv setup c) : c.HasDeadline ↔ c.state ≠ .sendPlayServer := by
  have htimer : c.timeout.isSome = (resourcesIn setup.config.listed c.state).timer :=
    congrArg Resources.timer hi.resources
  have hconnect : c.connect.isSome = (resourcesIn setup.config.listed c.state).connect :=
    congrArg Resources.connect hi.resources
  unfold HasDeadline
  rw [htimer, hconnect]
  cases c.state <;> simp [State.waits, resourcesIn]

/-! ## The way to `SEND_PLAY_SERVER` -/

/-- The result is a connection in `SEND_PLAY_SERVER`. -/
def Awaits (r : Result) : Prop := ∃ c', r = .alive c' ∧ c'.state = .sendPlayServer

theorem not_awaits_destroyed : ¬ Awaits (.destroyed c) := by
  rintro ⟨c', h, -⟩
  cases h

theorem not_awaits_crashed {why : Stop} : ¬ Awaits (.crashed why c) := by
  rintro ⟨c', h, -⟩
  cases h

theorem not_awaits_alive (h : c.state ≠ .sendPlayServer) : ¬ Awaits (.alive c) := by
  rintro ⟨c', hc, hs⟩
  cases hc
  exact h hs

theorem Establishes.not_awaits (h : Establishes setup c r) (hp : c.sendPlayServer = false) :
    ¬ Awaits r := by
  cases h with
  | failed => exact not_awaits_destroyed
  | sendPlayServer hb hplay => exact nomatch hp.symm.trans hplay
  | ready => exact not_awaits_alive (by simp [setState])

theorem Connects.not_awaits {address : SocketAddress} (h : Connects setup address c r)
    (hs : c.state = .connecting) (hp : c.sendPlayServer = false) : ¬ Awaits r := by
  cases h with
  | pending => exact not_awaits_alive fun he => nomatch hs.symm.trans he
  | failed => exact not_awaits_destroyed
  | now h => exact h.not_awaits hp

theorem Accepts.not_awaits (h : Accepts setup c r) (hp : c.sendPlayServer = false) : ¬ Awaits r := by
  cases h with
  | failed => exact not_awaits_destroyed
  | listed => exact not_awaits_alive (by simp [Connection.listed, setState, mapEvent, setTimeout])
  | direct hl h => exact h.not_awaits rfl hp

theorem Judges.not_awaits {username : List UInt8} {result : Bool} (h : Judges setup username c result r)
    (hp : c.sendPlayServer = false) : ¬ Awaits r := by
  cases h with
  | rejected => exact not_awaits_destroyed
  | accepted hq h => exact h.not_awaits hp

theorem Completes.not_awaits (h : Completes setup c r) (hp : c.sendPlayServer = false) :
    ¬ Awaits r := by
  cases h with
  | malformed | throws => exact not_awaits_destroyed
  | noDatabase hw h => exact h.not_awaits hp
  | queued => exact not_awaits_alive (by simp [checking, setState, setCancelPtr, setJob, emit])

theorem LogsIn.not_awaits (h : LogsIn setup c r) (hs : c.state = .initial)
    (hp : c.sendPlayServer = false) : ¬ Awaits r := by
  cases h with
  | failed => exact not_awaits_destroyed
  | short => exact not_awaits_alive fun he => nomatch hs.symm.trans he
  | complete hq heq h => exact h.not_awaits hp

theorem Lists.not_awaits (h : Lists c r) : ¬ Awaits r := by
  cases h with
  | failed => exact not_awaits_destroyed
  | played => exact not_awaits_alive (by simp [Connection.played, setState])

theorem Relays.not_awaits {side : Side} {events : Events} (h : Relays c side events ans r)
    (hs : c.state = .ready) : ¬ Awaits r := by
  rintro ⟨c', rfl, hs'⟩
  have hstate : c'.state = c.state := congrArg Core.state h.core
  exact nomatch hs'.symm.trans (hstate.trans hs)

/-- The game server takes some of the initial packets, unless `Send` fails. -/
theorem onSocketConnectSuccess_awaits_iff (hs : c.state = .connecting)
    (hf : c.initialPacketsFill = initialSize) (ans : Answers) :
    Awaits (c.onSocketConnectSuccess setup ans) ↔ c.sendPlayServer = true ∧ ans.sendInitial ≠ .fails := by
  by_cases hfails : ans.sendInitial = .fails
  · rw [onSocketConnectSuccess_of_none hs hf (by rw [hfails]; rfl)]
    exact iff_of_false not_awaits_destroyed fun h => h.2 hfails
  · obtain ⟨bytes, ha, -⟩ := sendTo_of_ne_fails hfails c .server (c.vector setup)
    rw [onSocketConnectSuccess_of_some hs hf ha]
    by_cases hp : c.sendPlayServer = true
    · rw [if_pos hp]
      exact iff_of_true ⟨_, rfl, rfl⟩ ⟨hp, hfails⟩
    · rw [if_neg hp]
      exact iff_of_false (not_awaits_alive (by simp [setState])) fun h => hp h.1

theorem connectTo_awaits_iff (hs : c.state = .connecting) (hf : c.initialPacketsFill = initialSize)
    (ans : Answers) (address : SocketAddress) :
    Awaits (c.connectTo setup ans address) ↔
      ans.connect = .succeeds ∧ c.sendPlayServer = true ∧ ans.sendInitial ≠ .fails := by
  unfold connectTo
  cases ans.connect with
  | pending =>
      refine iff_of_false (not_awaits_alive fun he => ?_) (by simp)
      exact nomatch hs.symm.trans he
  | succeeds =>
      refine Iff.trans ?_ (and_iff_right rfl).symm
      exact onSocketConnectSuccess_awaits_iff (c := c.emit (.connect address)) hs hf ans
  | fails =>
      refine iff_of_false ?_ (by simp)
      change ¬ Awaits (c.emit (.connect address)).onSocketConnectError
      rw [onSocketConnectError_eq (c := c.emit (.connect address)) hs]
      exact not_awaits_destroyed

/-- The packet that is read chooses a server of the list. -/
def Chooses (setup : Setup) (c : Connection) (ans : Answers) : Prop :=
  ∃ packet, (c.client.readNoWait sizeofPlayServer ans.read).1 = some packet ∧
    chosenServer setup.config packet ≠ none

theorem receivePlayServer_awaits_iff (hi : Inv setup c) (hs : c.state = .serverList) (ans : Answers) :
    Awaits (c.receivePlayServer setup ans) ↔
      Chooses setup c ans ∧ ans.connect = .succeeds ∧ ans.sendInitial ≠ .fails := by
  rcases c.client.readNoWait_cases sizeofPlayServer ans.read with h | ⟨packet, rest, -, -, -, h⟩
  · rw [receivePlayServer_of_none hi hs h]
    refine iff_of_false not_awaits_destroyed ?_
    rintro ⟨⟨packet, hpacket, -⟩, -⟩
    simp [h] at hpacket
  · have hchooses : Chooses setup c ans ↔ chosenServer setup.config packet ≠ none := by
      simp [Chooses, h]
    rw [receivePlayServer_of_some hi hs h, hchooses]
    cases chosenServer setup.config packet with
    | none => exact iff_of_false not_awaits_destroyed fun hne => hne.1 rfl
    | some server =>
        have hfull : c.initialPacketsFill = initialSize := hi.full fun he => nomatch hs.symm.trans he
        have hconnects : Awaits ((c.chosen packet rest server).connectTo setup ans server.address) ↔
            ans.connect = .succeeds ∧ true = true ∧ ans.sendInitial ≠ .fails :=
          connectTo_awaits_iff (c := c.chosen packet rest server) rfl hfull ans server.address
        simp only [true_and] at hconnects
        simp only [hconnects, ne_eq, reduceCtorEq, not_false_eq_true, true_and]

/-! ## The callbacks -/

/-- A connect to a server that the client has chosen succeeds, and so does the first `Send`: the connect
was pending, or it is finished at once. -/
def ConnectsChosen (setup : Setup) (c : Connection) (ans : Answers) : Event → Prop
  | .connectSuccess => c.sendPlayServer = true ∧ ans.sendInitial ≠ .fails
  | .incomingReady events =>
    events.dead = false ∧ c.state = .serverList ∧ Chooses setup c ans ∧ ans.connect = .succeeds ∧
      ans.sendInitial ≠ .fails
  | _ => False

/-- In `SERVER_LIST` the callback of the client's socket is `ReceivePlayServer`, unless the socket is
dead. -/
theorem dispatch_serverList {events : Events} (hi : Inv setup c) (hs : c.state = .serverList)
    (h : dispatch setup stock c ans (.incomingReady events) = some (stock', r)) :
    r = if events.dead = true then .destroyed c else c.receivePlayServer setup ans := by
  have hconnect : ¬ c.connect.isSome = true := by
    rw [hi.connect_iff, hs]
    decide
  simp only [dispatch] at h
  split at h
  · rename_i hdisp
    have hr : (c.onIncomingReady setup stock events ans).2 = r := congrArg Prod.snd (Option.some.inj h)
    rw [← hr]
    by_cases hdead : events.dead = true
    · simp [onIncomingReady, hdead, hs]
    · have hread := (hi.incoming_read (fun he => by cases hs.symm.trans he) hdisp
        ((Bool.not_eq_true _).mp hdead)).1
      simp [onIncomingReady, hdead, hconnect, hs, hread]
  · cases h

/-- These callbacks lead to `SEND_PLAY_SERVER`, and no others. -/
theorem dispatch_awaits_iff {e : Event} (hi : Inv setup c)
    (h : dispatch setup stock c ans e = some (stock', r)) :
    Awaits r ↔ ConnectsChosen setup c ans e := by
  have hplay : c.sendPlayServer = (resourcesIn setup.config.listed c.state).play :=
    congrArg Resources.play hi.resources
  cases dispatch_called hi h with
  | dies hq he =>
      refine iff_of_false not_awaits_destroyed fun hc => ?_
      cases he with
      | initialHangup hd | hangup hd => cases hc.1.symm.trans hd
      | serverHangup | timeout | connectError => exact hc
  | connectPending hs =>
      exact iff_of_false not_awaits_crashed fun hc => by cases hs.symm.trans hc.2.1
  | logsIn hs hlogsIn =>
      rw [hs] at hplay
      exact iff_of_false (hlogsIn.not_awaits hs hplay) fun hc => by cases hs.symm.trans hc.2.1
  | @plays events hs =>
      rw [dispatch_serverList hi hs h]
      unfold ConnectsChosen
      cases hdead : events.dead with
      | true => exact iff_of_false not_awaits_destroyed fun hc => by cases hdead.symm.trans hc.1
      | false =>
          rw [if_neg Bool.false_ne_true, receivePlayServer_awaits_iff hi hs]
          simp only [hdead, hs, true_and]
  | lists hs hlists => exact iff_of_false hlists.not_awaits id
  | @relays side events hs _ _ _ _ _ hrelays =>
      refine iff_of_false (hrelays.not_awaits hs) fun hc => ?_
      cases side with
      | client => cases hs.symm.trans hc.2.1
      | server => exact hc
  | establishes hs =>
      simp only [dispatch] at h
      split at h
      · cases h
        exact onSocketConnectSuccess_awaits_iff (c := c.setConnect none) hs
          (hi.full fun he => by cases hs.symm.trans he) ans
      · cases h
  | judges hs hj hjudges =>
      rw [hs] at hplay
      exact iff_of_false (hjudges.not_awaits hplay) id

end Connection

namespace Instance

open Connection

variable {setup : Setup} {inst inst' : Instance} {inputs : List Input}

/-- Every live connection that waits for a peer has a deadline. -/
def HaveDeadlines (inst : Instance) : Prop := ∀ id c, inst.conns id = .live c → c.HasDeadline

/-- **One input**: it keeps the deadlines exactly if it is no such callback. -/
theorem haveDeadlines_step {input : Input} (hg : Good setup inst) (h : HaveDeadlines inst)
    (hs : step setup inst input = some inst') :
    HaveDeadlines inst' ↔ Meets (fun c e ans => ¬ ConnectsChosen setup c ans e) inst input := by
  have hgood := good_step hg hs
  obtain ⟨-, hs⟩ := step_cases hs
  cases hs with
  | accept hc =>
      refine iff_of_true (fun id c hlive => ?_) fun _ _ _ _ he => by cases he
      rcases conns_setConn hlive with ⟨-, he⟩ | hold
      · exact (hgood.live hlive).hasDeadline_iff.mpr (by cases he; simp [Connection.new])
      · exact h id c hold
  | @arrive id side bytes c hc =>
      refine iff_of_true (fun id' c' hlive => ?_) fun _ _ _ _ he => by cases he
      rcases conns_setConn hlive with ⟨-, he⟩ | hold
      · cases he
        cases side <;> exact h id c hc
      · exact h id' c' hold
  | @event id e ans c hc stock r hd =>
      have hawaits := dispatch_awaits_iff (hg.live hc) hd
      constructor
      · rintro hdeadlines id' e' ans' c' he hc' hchosen
        cases he
        cases hc.symm.trans hc'
        obtain ⟨c', rfl, hs'⟩ := hawaits.mpr hchosen
        have hlive : (inst.settle id stock (.alive c')).conns id = .live c' := by
          simp only [settle, setConn, Function.update_self]
        exact (hgood.live hlive).hasDeadline_iff.mp (hdeadlines id c' hlive) hs'
      · intro hmeets id' c' hlive
        have hnot : ¬ Awaits r := fun ha => hmeets id e ans c rfl hc (hawaits.mp ha)
        rcases live_settle hlive with ⟨-, he⟩ | hold
        · exact (hgood.live hlive).hasDeadline_iff.mpr fun hs' => hnot ⟨c', he, hs'⟩
        · exact h id' c' hold
  | discard => exact iff_of_true h fun _ _ _ _ he => by cases he

/-- **The deadlines of the handshake.** In every state of a run every connection that waits for a peer
has a deadline, exactly if no callback of the run connects a client to a server that it has chosen. -/
theorem deadline_iff (h : Run setup inputs inst) :
    (∀ pre inst', pre <+: inputs → Run setup pre inst' → HaveDeadlines inst') ↔
      Machine.Along (step setup) (Meets fun c e ans => ¬ ConnectsChosen setup c ans e) {} inputs :=
  Machine.invariant_iff_along good_empty (fun _ _ _ => good_step) (fun _ _ hc => by cases hc)
    (fun _ _ _ => haveDeadlines_step) h

/-- No connect of the input succeeds. -/
def staysPending : Input → Bool
  | .event _ .connectSuccess _ => false
  | .event _ _ ans => decide (ans.connect ≠ .succeeds)
  | _ => true

theorem meets_of_staysPending {input : Input} (h : staysPending input = true) (inst : Instance) :
    Meets (fun c e ans => ¬ ConnectsChosen setup c ans e) inst input := by
  rintro id e ans c rfl - hchosen
  cases e with
  | incomingReady events => exact of_decide_eq_true h hchosen.2.2.2.1
  | connectSuccess => cases h
  | outgoingReady | timeout | connectError | checkDone => exact hchosen

/-- The client has the server list, and a minute to choose. -/
theorem deadline_of_sample :
    ∃ inst c, Run sampleListed sampleServerList inst ∧ inst.conns 0 = .live c ∧
      c.state = .serverList ∧ HaveDeadlines inst := by
  obtain ⟨inst, c, h, hc, hs⟩ : ∃ inst c, Run sampleListed sampleServerList inst ∧
      inst.conns 0 = .live c ∧ c.state = .serverList := ⟨_, _, rfl, rfl, rfl⟩
  refine ⟨inst, c, h, hc, hs, (deadline_iff h).mpr ?_ _ inst List.prefix_rfl h⟩
  have hpending : ∀ input ∈ sampleServerList, staysPending input = true := List.all_eq_true.mp rfl
  exact Machine.along_of_forall (fun input hi => meets_of_staysPending (hpending input hi)) _

/-- **The client has chosen, and its game server is silent**: nothing is pending. -/
theorem silent_server_holds_connection :
    ∃ inst c, Run sampleListed sampleChosen inst ∧ inst.conns 0 = .live c ∧
      c.state = .sendPlayServer ∧ c.timeout = none ∧ c.connect = none ∧ ¬ HaveDeadlines inst := by
  obtain ⟨inst, c, h, hc, hs, ht, hn⟩ : ∃ inst c, Run sampleListed sampleChosen inst ∧
      inst.conns 0 = .live c ∧ c.state = .sendPlayServer ∧ c.timeout = none ∧ c.connect = none :=
    ⟨_, _, rfl, rfl, rfl, rfl, rfl⟩
  exact ⟨inst, c, h, hc, hs, ht, hn, fun hd =>
    ((good_run h).live hc).hasDeadline_iff.mp (hd 0 c hc) hs⟩

end Instance

end UoLogin
