import UoLogin.Session

set_option autoImplicit false

/-!
# What goes through the proxy

Everything that a connection writes to one peer, compared with everything that the other peer has
sent.

* `preamble`, `Session.written`: what a session writes is fixed by its state, apart from the bytes of
  the relay;
* `Offsets`: how far the login, the choice of the client and the server's list have been read, so
  that the relay begins at a known place of each stream;
* **`transparent`**: in every run, if no `Send` is cut short, each peer gets what the other one sends,
  with the two insertions and the two omissions of the login.
-/

namespace UoLogin

variable {setup : Setup} {host packets : List UInt8} {sent : Side → List UInt8} {s : State}
  {t : List Act}

/-! ## What a session writes -/

theorem written_append (peer : Side) (as bs : List Act) :
    written peer (as ++ bs) = written peer as ++ written peer bs :=
  List.flatMap_append

theorem written_singleton (peer : Side) (a : Act) : written peer [a] = a.written peer :=
  List.append_nil _

theorem written_pair (peer : Side) (a b : Act) :
    written peer [a, b] = a.written peer ++ b.written peer :=
  congrArg (a.written peer ++ ·) (List.append_nil _)

/-- Bookkeeping writes nothing. -/
theorem Act.written_of_not_visible {a : Act} (h : a.visible = false) (peer : Side) :
    a.written peer = [] := by
  cases a <;> first | rfl | cases h

theorem written_visible (peer : Side) (log : List Act) :
    written peer (log.filter Act.visible) = written peer log := by
  induction log with
  | nil => rfl
  | cons a log ih =>
      change _ = a.written peer ++ written peer log
      rw [List.filter_cons]
      split
      · exact congrArg (a.written peer ++ ·) ih
      · rename_i h
        rw [Act.written_of_not_visible ((Bool.not_eq_true _).mp h)]
        exact ih

/-- No `Send` was cut short: it took the whole buffer, or failed and left no entry. -/
def Act.whole : Act → Bool
  | .send _ buffer accepted => accepted == buffer
  | _ => true

def WholeSends (log : List Act) : Prop := ∀ a ∈ log, a.whole = true

theorem WholeSends.accepted {log : List Act} {peer : Side} {buffer accepted : List UInt8}
    (h : WholeSends log) (hm : .send peer buffer accepted ∈ log) : accepted = buffer :=
  eq_of_beq (h _ hm)

theorem WholeSends.left {as bs : List Act} (h : WholeSends (as ++ bs)) : WholeSends as :=
  fun a hm => h a (List.mem_append_left _ hm)

theorem WholeSends.right {as bs : List Act} (h : WholeSends (as ++ bs)) : WholeSends bs :=
  fun a hm => h a (List.mem_append_right _ hm)

/-- What a session has written to a peer when it is in a state, apart from the bytes of the relay. -/
def preamble (setup : Setup) (host packets : List UInt8) : State → Side → List UInt8
  | .initial, _ | .checkCredentials, _ | .serverList, .server | .connecting, .server => []
  | .serverList, .client | .connecting, .client | .sendPlayServer, .client | .ready, .client =>
      if setup.config.listed then serverListPacket setup.config.serverList else []
  | .sendPlayServer, .server => initialPacketsVector setup.config host packets
  | .ready, .server => initialPacketsVector setup.config host packets ++
      if setup.config.listed then playServerPacket else []

/-- Before `READY` nothing is relayed. -/
theorem Session.sent_nil (h : Session setup host packets s sent t) (hs : s ≠ .ready) :
    sent = fun _ => [] := by
  induction h with
  | initial => rfl
  | check hw => rfl
  | serverList hl h ih | direct hl h ih | chosen hm h ih | sendPlayServer hl h ih => exact ih nofun
  | ready | played | sends | receives => exact (hs rfl).elim

theorem Session.written (h : Session setup host packets s sent t) (hw : WholeSends t) (peer : Side) :
    written peer t = preamble setup host packets s peer ++ sent peer := by
  induction h with
  | initial => cases peer <;> rfl
  | check => cases peer <;> rfl
  | @serverList hl sent t bytes h ih =>
      have hb : bytes = _ := hw.right.accepted (List.mem_cons_of_mem _ List.mem_cons_self)
      rw [written_append, ih hw.left, h.sent_nil nofun, hb]
      simp only [preamble, Config.listed_eq_true hl]
      cases peer <;> rfl
  | @direct hl sent t h ih =>
      rw [written_append, ih hw.left, h.sent_nil nofun]
      simp only [preamble, Config.listed_eq_false hl]
      cases peer <;> rfl
  | @chosen server hm sent t h ih =>
      rw [written_append, ih hw.left, h.sent_nil nofun]
      cases peer
      · exact (List.append_nil _)
      · rfl
  | @sendPlayServer hl sent t bytes h ih =>
      have hb : bytes = _ := hw.right.accepted List.mem_cons_self
      rw [written_append, ih hw.left, h.sent_nil nofun, hb]
      cases peer
      · exact (List.append_nil _)
      · rfl
  | @ready hl sent t bytes h ih =>
      have hb : bytes = _ := hw.right.accepted List.mem_cons_self
      rw [written_append, ih hw.left, h.sent_nil nofun, hb]
      simp only [preamble, Config.listed_eq_false hl]
      cases peer
      · rfl
      · simp only [written_pair, Act.written, List.append_nil]
        exact (List.append_nil _).symm
  | @played sent t bytes h ih =>
      have hb : bytes = _ := hw.right.accepted List.mem_cons_self
      rw [written_append, ih hw.left, h.sent_nil nofun, hb]
      simp only [preamble, h.listed]
      cases peer
      · exact (List.append_nil _)
      · simp only [written_pair, Act.written, List.append_nil]
  | @sends d size hz bytes sent sent' hd ho t h ih =>
      rw [written_append, ih hw.left, written_pair]
      by_cases hp : peer = d.sink
      · subst hp
        rw [hd, List.append_assoc]
        simp only [Act.written, if_true, List.nil_append]
      · rw [ho peer hp]
        simp only [Act.written, if_neg (Ne.symm hp), List.append_nil]
  | @receives d result hr sent t h ih =>
      rw [written_append, ih hw.left, written_pair]
      simp only [Act.written, List.append_nil]

theorem Session.ne_nil (h : Session setup host packets s sent t) (hs : s ≠ .initial) : t ≠ [] := by
  cases h with
  | initial => exact (hs rfl).elim
  | check => exact List.cons_ne_nil _ _
  | _ => exact List.append_ne_nil_of_right_ne_nil _ (List.cons_ne_nil _ _)

theorem Refusal.written (h : Refusal t) :
    written .server t = [] ∧ written .client t <+: accountLoginRejectPacket := by
  cases h with
  | skipped => exact ⟨rfl, List.nil_prefix⟩
  | sent h =>
      refine ⟨rfl, ?_⟩
      rw [written_singleton]
      exact h

/-- A connection that is over has written what its session wrote, or it was refused. -/
theorem Ended.written (h : Ended setup host packets sent t) (hw : WholeSends t) :
    (∃ s t', Session setup host packets s sent t' ∧ t' <+: t ∧
      ∀ peer, written peer t = preamble setup host packets s peer ++ sent peer) ∨
      written .server t = [] ∧ written .client t <+: accountLoginRejectPacket := by
  have hends : ∀ {s t a}, Session setup host packets s sent t → WholeSends (t ++ [a]) →
      (∀ peer, a.written peer = []) → ∃ s t', Session setup host packets s sent t' ∧ t' <+: t ++ [a] ∧
        ∀ peer, UoLogin.written peer (t ++ [a]) = preamble setup host packets s peer ++ sent peer := by
    intro s t a h hw ha
    refine ⟨s, t, h, List.prefix_append _ _, fun peer => ?_⟩
    rw [written_append, written_singleton, ha, List.append_nil]
    exact h.written hw.left peer
  have hnone : ∀ {t peer}, Session setup host packets .checkCredentials sent t → WholeSends t →
      UoLogin.written peer t = [] := by
    intro t peer h hw
    rw [h.written hw, h.sent_nil nofun]
    rfl
  cases h with
  | stopped h => exact .inl ⟨_, _, h, List.prefix_rfl, h.written hw⟩
  | malformed h => exact .inr h.written
  | throws h ht =>
      rw [written_append, written_append, hnone h hw.left, hnone h hw.left]
      exact .inr ht.written
  | rejected h ht =>
      rw [written_append, written_append, hnone h hw.left, hnone h hw.left]
      exact .inr ht.written
  | unlisted hl h => exact .inl (hends h hw fun peer => rfl)
  | closed h => exact .inl (hends h hw fun peer => rfl)
  | receiveThrows h => exact .inl (hends h hw fun peer => rfl)

/-! ## Where the relay begins -/

/-- A packet that begins with a command and its own length. -/
def IsList (header : List UInt8) : Prop :=
  header.length = unpackBE16 (header.drop 1) ∧ 3 ≤ header.length

/-- The length of a packet is also that of the stream that begins with it. -/
theorem IsList.unpack_append {header : List UInt8} (h : IsList header) (rest : List UInt8) :
    unpackBE16 ((header ++ rest).drop 1) = header.length := by
  obtain ⟨hlen, hle⟩ := h
  match header, hlen, hle with
  | _ :: _ :: _ :: _, hlen, _ => exact hlen.symm

namespace Connection

variable {c c' : Connection} {r : Result} {d : Dir}

/-- The client's stream has been read up to the end of the login and of its choice, and then by the
relay. -/
def ClientAt (c : Connection) : Prop :=
  ∃ play : List UInt8, play.length = (if c.sendPlayServer then sizeofPlayServer else 0) ∧
    c.client.consumed = c.initialPackets.bytes ++ play ++ c.spliceInOut.taken

/-- **How far each stream has been read.** -/
structure Offsets (c : Connection) : Prop where
  filling : c.state = .initial →
    c.client.consumed = c.initialPackets.bytes.take c.initialPacketsFill
  client : c.state ≠ .initial → c.ClientAt
  server : ∃ header : List UInt8,
    (if c.state = .ready ∧ c.sendPlayServer = true then IsList header else header = []) ∧
      c.server.consumed = header ++ c.spliceOutIn.taken

/-- Before the server's list is discarded, only the relay reads from the game server. -/
theorem Offsets.server_consumed (h : Offsets c) (hs : c.state ≠ .ready) :
    c.server.consumed = c.spliceOutIn.taken := by
  obtain ⟨header, hh, hc⟩ := h.server
  rw [if_neg (fun he => hs he.1)] at hh
  rw [hc, hh]
  rfl

/-- The login packets are the front of the client's stream. -/
def Logged (c : Connection) : Prop := c.client.stream.take initialSize = c.initialPackets.bytes

theorem ClientAt.logged (h : c.ClientAt) : c.Logged := by
  obtain ⟨play, -, hc⟩ := h
  unfold Logged Inbound.stream
  rw [hc, ← c.initialPackets.length_eq, List.append_assoc, List.append_assoc]
  exact List.take_left

/-! ### Before the relay -/

/-- What only reading and the choice of a server change. -/
structure Held where
  client : Inbound
  server : Inbound
  play : Bool

def held (c : Connection) : Held where
  client := c.client
  server := c.server
  play := c.sendPlayServer

/-- Nothing is read on the way to `READY`, and without a choice of the client `READY` begins with an
unread stream of the game server. -/
structure Opens (c : Connection) (r : Result) : Prop where
  kept : r.conn.kept = c.kept
  held : r.conn.held = c.held
  alive : ∀ c', r = .alive c' →
    c'.state ≠ .initial ∧ (c'.state = .ready → c'.sendPlayServer = false)

theorem Establishes.opens (h : Establishes setup c r) : Opens c r := by
  refine ⟨h.kept, by cases h <;> rfl, fun c' he => ?_⟩
  cases h with
  | failed => cases he
  | sendPlayServer =>
      cases he
      exact ⟨nofun, nofun⟩
  | ready hb hp =>
      cases he
      exact ⟨nofun, fun _ => hp⟩

theorem Connects.opens {address : SocketAddress} (h : Connects setup address c r)
    (hs : c.state = .connecting) : Opens c r := by
  cases h with
  | pending =>
      refine ⟨rfl, rfl, fun c' he => ?_⟩
      cases he
      exact ⟨fun hi => (nomatch hs.symm.trans hi), fun hr => (nomatch hs.symm.trans hr)⟩
  | failed => exact ⟨rfl, rfl, fun c' he => nomatch he⟩
  | now h => exact ⟨h.opens.kept, h.opens.held, h.opens.alive⟩

theorem Accepts.opens (h : Accepts setup c r) : Opens c r := by
  cases h with
  | failed => exact ⟨rfl, rfl, fun c' he => nomatch he⟩
  | listed =>
      refine ⟨rfl, rfl, fun c' he => ?_⟩
      cases he
      exact ⟨nofun, nofun⟩
  | direct hl h => exact ⟨(h.opens rfl).kept, (h.opens rfl).held, (h.opens rfl).alive⟩

theorem Judges.opens {username : List UInt8} {result : Bool} (h : Judges setup username c result r) :
    Opens c r := by
  cases h with
  | rejected => exact ⟨rfl, rfl, fun c' he => nomatch he⟩
  | accepted hq h => exact ⟨h.opens.kept, h.opens.held, h.opens.alive⟩

theorem Completes.opens (h : Completes setup c r) : Opens c r := by
  cases h with
  | malformed | throws => exact ⟨rfl, rfl, fun c' he => nomatch he⟩
  | noDatabase hw h => exact ⟨h.opens.kept, h.opens.held, h.opens.alive⟩
  | queued =>
      refine ⟨rfl, rfl, fun c' he => ?_⟩
      cases he
      exact ⟨nofun, nofun⟩

theorem Opens.clientAt (h : Opens c r) (hc : c.ClientAt) : r.conn.ClientAt := by
  unfold ClientAt
  rw [show r.conn.sendPlayServer = c.sendPlayServer from congrArg Held.play h.held,
    show r.conn.client = c.client from congrArg Held.client h.held,
    show r.conn.initialPackets = c.initialPackets from congrArg Kept.initialPackets h.kept,
    show r.conn.spliceInOut = c.spliceInOut from congrArg Kept.inOut h.kept]
  exact hc

theorem Opens.offsets (h : Opens c (.alive c')) (hc : c.ClientAt)
    (hs : c.server.consumed = c.spliceOutIn.taken) : Offsets c' := by
  obtain ⟨hinitial, hready⟩ := h.alive c' rfl
  refine ⟨fun hi => (hinitial hi).elim, fun _ => h.clientAt hc, [], ?_, ?_⟩
  · rw [if_neg (fun he => Bool.false_ne_true ((hready he.1).symm.trans he.2))]
  · rw [show c'.server = c.server from congrArg Held.server h.held,
      show c'.spliceOutIn = c.spliceOutIn from congrArg Kept.outIn h.kept]
    exact hs

/-- The buffer holds the front of the client's stream. -/
theorem Offsets.clientAt_filled (h : Offsets c) (hs : c.state = .initial)
    (hp : c.sendPlayServer = false) (hf : ∀ d, c.splice d = {}) {bytes rest : List UInt8}
    (heq : c.initialPacketsFill + bytes.length = initialSize) : (c.filled bytes rest).ClientAt := by
  refine ⟨[], ?_, ?_⟩
  · change 0 = if c.sendPlayServer then sizeofPlayServer else 0
    rw [hp]
    rfl
  · change c.client.consumed ++ bytes =
      (c.filled bytes rest).initialPackets.bytes ++ [] ++ (c.splice .inOut).taken
    rw [h.filling hs, bytes_filled rest heq, hf .inOut, List.append_nil, List.append_nil]

/-- **What was relayed lies behind the offsets.** -/
structure Aligned (setup : Setup) (c : Connection) : Prop where
  packets : c.trace ≠ [] → c.Logged
  server : c.relayed .server <+:
    c.client.stream.drop (initialSize + if setup.config.listed then sizeofPlayServer else 0)
  client : c.relayed .client <+: c.server.stream.drop
    (if setup.config.listed then unpackBE16 (c.server.stream.drop 1) else 0)

theorem aligned_of_fresh (hf : ∀ d, c.splice d = {}) (hl : c.trace ≠ [] → c.Logged) :
    Aligned setup c := by
  refine ⟨hl, ?_, ?_⟩
  · rw [relayed_fresh hf]
    exact List.nil_prefix
  · rw [relayed_fresh hf]
    exact List.nil_prefix

/-- What a callback leaves. -/
abbrev Leaves (setup : Setup) : Result → Prop :=
  Result.Satisfies Offsets (Aligned setup) fun _ => Aligned setup

theorem Opens.leaves (h : Opens c r) (hc : c.ClientAt)
    (hs : c.server.consumed = c.spliceOutIn.taken) (hf : ∀ d, c.splice d = {}) : Leaves setup r := by
  have hpast : Aligned setup r.conn :=
    aligned_of_fresh (fun d => (splice_of_kept h.kept d).trans (hf d)) fun _ => (h.clientAt hc).logged
  cases r with
  | alive c' => exact h.offsets hc hs
  | destroyed c' => exact hpast
  | crashed why c' => exact hpast

theorem LogsIn.leaves (h : LogsIn setup c r) (hs : c.state = .initial) (hp : c.sendPlayServer = false)
    (hf : ∀ d, c.splice d = {}) (ho : Offsets c) (ha : Aligned setup c) : Leaves setup r := by
  have hserver := ho.server_consumed fun he => nomatch hs.symm.trans he
  cases h with
  | failed => exact ha
  | @short bytes rest hq hlt =>
      refine ⟨fun _ => ?_, fun hn => (hn hs).elim, ho.server⟩
      rw [initialPacketsFill_filled rest (Nat.le_of_lt hlt)]
      change c.client.consumed ++ bytes = _
      rw [ho.filling hs]
      exact (take_fillAt c.initialPackets (Nat.le_of_lt hlt)).symm
  | complete hq heq h =>
      exact h.opens.leaves (ho.clientAt_filled hs hp hf heq) hserver (splice_of_fields hf rfl rfl)

theorem Plays.leaves (h : Plays setup c r) (hp : c.sendPlayServer = false)
    (hf : ∀ d, c.splice d = {}) (hc : c.ClientAt) (hs : c.server.consumed = c.spliceOutIn.taken) :
    Leaves setup r := by
  cases h with
  | failed h =>
      refine aligned_of_fresh (splice_of_fields hf rfl rfl) fun _ => ?_
      exact (congrArg (List.take initialSize) h).trans hc.logged
  | @connects packet rest server hq hlen hm r h =>
      refine (h.opens rfl).leaves ⟨packet, hlen, ?_⟩ hs (splice_of_fields hf rfl rfl)
      obtain ⟨play, hplay, hconsumed⟩ := hc
      have hnil : play = [] := List.eq_nil_of_length_eq_zero (by rw [hplay, hp]; rfl)
      have htaken : c.spliceInOut.taken = [] := congrArg Splice.taken (hf .inOut)
      change c.client.consumed ++ packet = c.initialPackets.bytes ++ packet ++ c.spliceInOut.taken
      rw [hconsumed, hnil, htaken]
      simp only [List.append_nil]

theorem Lists.leaves (h : Lists c r) (hp : c.sendPlayServer = true) (hf : ∀ d, c.splice d = {})
    (hc : c.ClientAt) (hs : c.server.consumed = c.spliceOutIn.taken) : Leaves setup r := by
  cases h with
  | failed => exact aligned_of_fresh (splice_of_fields hf rfl rfl) fun _ => hc.logged
  | @played header rest bytes hq hlen hle =>
      refine ⟨nofun, fun _ => hc, header, ?_, ?_⟩
      · rw [if_pos ⟨rfl, hp⟩]
        exact ⟨hlen, hle⟩
      · have htaken : c.spliceOutIn.taken = [] := congrArg Splice.taken (hf .outIn)
        change c.server.consumed ++ header = header ++ c.spliceOutIn.taken
        rw [hs, htaken]
        exact (List.append_nil _).symm

/-! ### The relay -/

/-- Each direction has put what it read from its source into its splice. -/
structure Advances (c c' : Connection) : Prop where
  core : c'.core = c.core
  moved : ∀ d, ∃ bytes, (c'.inbound d.source).consumed = (c.inbound d.source).consumed ++ bytes ∧
    (c'.splice d).taken = (c.splice d).taken ++ bytes

theorem Advances.trans {c'' : Connection} (h : Advances c c') (h' : Advances c' c'') :
    Advances c c'' := by
  refine ⟨h'.core.trans h.core, fun d => ?_⟩
  obtain ⟨as, hconsumed, htaken⟩ := h.moved d
  obtain ⟨bs, hconsumed', htaken'⟩ := h'.moved d
  refine ⟨as ++ bs, ?_, ?_⟩
  · rw [hconsumed', hconsumed, List.append_assoc]
  · rw [htaken', htaken, List.append_assoc]

/-- The other direction did nothing. -/
theorem Frame.advances (hf : Frame d c c') (bytes : List UInt8)
    (hc : (c'.inbound d.source).consumed = (c.inbound d.source).consumed ++ bytes)
    (ht : (c'.splice d).taken = (c.splice d).taken ++ bytes) : Advances c c' := by
  refine ⟨hf.core, fun d' => ?_⟩
  by_cases hd : d' = d
  · subst hd
    exact ⟨bytes, hc, ht⟩
  · have hsource : d'.source ≠ d.source := by
      cases d <;> cases d' <;> first | exact (hd rfl).elim | exact nofun
    refine ⟨[], ?_, ?_⟩
    · rw [hf.inbound _ hsource, List.append_nil]
    · rw [show c'.splice d' = c.splice d' from congrArg Lane.splice (hf.lane d' hd), List.append_nil]

theorem Sends.inbound {ch : SpliceChoice} (h : Sends c d ch r) (side : Side) :
    r.conn.inbound side = c.inbound side := by
  cases h <;> cases d <;> cases side <;> rfl

theorem Sends.advances {ch : SpliceChoice} (h : Sends c d ch r) : Advances c r.conn := by
  obtain ⟨-, -, -, htaken⟩ := h.log
  refine h.frame.advances [] ?_ ?_
  · rw [h.inbound, List.append_nil]
  · rw [htaken, List.append_nil]

theorem advances_received {s : Splice UInt8} {bytes rest : List UInt8} (result : ReceiveResult)
    (hq : (c.inbound d.source).queue = bytes ++ rest) (ht : s.taken = (c.splice d).taken ++ bytes) :
    Advances c (c.received d s bytes rest result) := by
  refine (frame_received d s result hq).advances bytes ?_ ?_
  · cases d <;> rfl
  · rw [splice_received]
    exact ht

theorem advances_emit (c : Connection) (a : Act) : Advances c (c.emit a) :=
  ⟨rfl, fun d => ⟨[], by cases d <;> exact (List.append_nil _).symm,
    by cases d <;> exact (List.append_nil _).symm⟩⟩

theorem Receives.advances {ch : SpliceChoice} (h : Receives c d ch r) : Advances c r.conn := by
  cases h with
  | throws =>
      refine ((frame_setSplice c d _).trans (frame_emit _ d _)).advances [] ?_ ?_
      · cases d <;> exact (List.append_nil _).symm
      · cases d <;> exact (List.append_nil _).symm
  | got hq ht hd hz hp h =>
      exact ((advances_received .ok hq ht).trans (advances_emit _ _)).trans h.advances
  | blocked hq ht hd hz => exact advances_received .socketBlocking hq (ht.trans (List.append_nil _).symm)
  | closed hq ht hd =>
      exact ((advances_received .socketClosed hq (ht.trans (List.append_nil _).symm)).trans
        (advances_emit _ _)).trans (advances_emit _ _)
  | failed hq ht hd => exact advances_received .error hq (ht.trans (List.append_nil _).symm)

theorem Relays.advances {side : Side} {events : Events} {ans : Answers}
    (h : Relays c side events ans r) : Advances c r.conn := by
  have hflush : ∀ {c'}, Flushes c side events ans c' → Advances c c' := by
    intro c' hf
    cases hf with
    | skipped => exact (Frame.refl .inOut c).advances [] (List.append_nil _).symm (List.append_nil _).symm
    | sent hw hz h => exact h.advances
  cases h with
  | failed hw hz h => exact h.advances
  | sent h hr => exact hflush h
  | received h hr h' => exact (hflush h).trans h'.advances

theorem Advances.offsets (h : Advances c c') (hs : c.state = .ready) (ho : Offsets c) :
    Offsets c' := by
  have hplay : c'.sendPlayServer = c.sendPlayServer := congrArg Core.play h.core
  have hpackets : c'.initialPackets = c.initialPackets := congrArg Core.initialPackets h.core
  have hstate : c'.state = c.state := congrArg Core.state h.core
  refine ⟨fun hi => ?_, fun _ => ?_, ?_⟩
  · rw [hstate, hs] at hi
    cases hi
  · obtain ⟨play, hlen, hconsumed⟩ := ho.client fun hi => nomatch hs.symm.trans hi
    obtain ⟨bytes, hc, ht⟩ := h.moved .inOut
    refine ⟨play, by rw [hplay]; exact hlen, ?_⟩
    change c'.client.consumed = c.client.consumed ++ bytes at hc
    change c'.spliceInOut.taken = c.spliceInOut.taken ++ bytes at ht
    rw [hc, hconsumed, ht, hpackets, List.append_assoc]
  · obtain ⟨header, hheader, hconsumed⟩ := ho.server
    obtain ⟨bytes, hc, ht⟩ := h.moved .outIn
    refine ⟨header, by rw [hplay, hstate]; exact hheader, ?_⟩
    change c'.server.consumed = c.server.consumed ++ bytes at hc
    change c'.spliceOutIn.taken = c.spliceOutIn.taken ++ bytes at ht
    rw [hc, hconsumed, ht, List.append_assoc]

/-- In `READY` each direction has delivered bytes of the stream behind its offset. -/
theorem Offsets.aligned (ho : Offsets c) (hs : c.state = .ready)
    (hp : c.sendPlayServer = setup.config.listed) (hb : c.Books) : Aligned setup c := by
  have hclient := ho.client fun hi => nomatch hs.symm.trans hi
  refine ⟨fun _ => hclient.logged, ?_, ?_⟩
  · obtain ⟨play, hlen, hconsumed⟩ := hclient
    have hdrop : c.client.stream.drop
        (initialSize + if setup.config.listed then sizeofPlayServer else 0) =
          c.spliceInOut.taken ++ c.client.queue := by
      rw [← hp, ← hlen, ← c.initialPackets.length_eq, ← List.length_append, Inbound.stream, hconsumed,
        List.append_assoc (c.initialPackets.bytes ++ play)]
      exact List.drop_left
    rw [hdrop]
    exact (hb .inOut).1.trans (List.prefix_append _ _)
  · obtain ⟨header, hheader, hconsumed⟩ := ho.server
    have hstream : c.server.stream = header ++ (c.spliceOutIn.taken ++ c.server.queue) := by
      rw [Inbound.stream, hconsumed, List.append_assoc]
    have hdrop : c.server.stream.drop
        (if setup.config.listed then unpackBE16 (c.server.stream.drop 1) else 0) =
          c.spliceOutIn.taken ++ c.server.queue := by
      rw [← hp]
      cases hplay : c.sendPlayServer with
      | true =>
          rw [if_pos ⟨hs, hplay⟩] at hheader
          rw [if_pos rfl, hstream, hheader.unpack_append]
          exact List.drop_left
      | false =>
          rw [if_neg (fun he => Bool.false_ne_true (hplay.symm.trans he.2))] at hheader
          rw [if_neg Bool.false_ne_true, hstream, hheader]
          rfl
    rw [hdrop]
    exact (hb .outIn).1.trans (List.prefix_append _ _)

/-- A live connection is aligned in every state. -/
theorem Offsets.aligned_of_inv (ho : Offsets c) (hi : Inv setup c) (hb : c.Books)
    (ht : Traced setup c) : Aligned setup c := by
  by_cases hs : c.state = .ready
  · refine ho.aligned hs ?_ hb
    have hres := congrArg Resources.play hi.resources
    rw [hs] at hres
    exact hres
  · refine aligned_of_fresh (hi.fresh hs) fun htrace => (ho.client fun hinitial => htrace ?_).logged
    have hsession := ht.session
    rw [hinitial] at hsession
    exact hsession.eq_nil

theorem Relays.leaves {side : Side} {events : Events} {ans : Answers}
    (h : Relays c side events ans r) (hs : c.state = .ready)
    (hp : c.sendPlayServer = setup.config.listed) (ho : Offsets c) (hb : r.conn.Books) :
    Leaves setup r := by
  have hcore := h.core
  have hr := h.advances.offsets hs ho
  have ha : Aligned setup r.conn := hr.aligned ((congrArg Core.state hcore).trans hs)
    ((congrArg Core.play hcore).trans hp) hb
  cases r with
  | alive c' => exact hr
  | destroyed c' => exact ha
  | crashed why c' => exact ha

/-- **Every callback keeps the offsets.** -/
theorem Called.leaves {stock stock' : PipeStock UInt8} {ans : Answers} {e : Event}
    (h : Called setup stock c ans e stock' r) (hi : Inv setup c) (hb : c.Books) (hb' : r.conn.Books)
    (ht : Traced setup c) (ho : Offsets c) : Leaves setup r := by
  have ha := ho.aligned_of_inv hi hb ht
  have hplay : ∀ s, c.state = s → c.sendPlayServer = (resourcesIn setup.config.listed s).play := by
    intro s hs
    rw [← hs]
    exact congrArg Resources.play hi.resources
  have hfresh : ∀ s, c.state = s → s ≠ .ready → ∀ d, c.splice d = {} := fun s hs hr =>
    hi.fresh (hs ▸ hr)
  have hclient : ∀ s, c.state = s → s ≠ .initial → c.ClientAt := fun s hs hn => ho.client (hs ▸ hn)
  have hserver : ∀ s, c.state = s → s ≠ .ready → c.server.consumed = c.spliceOutIn.taken :=
    fun s hs hr => ho.server_consumed (hs ▸ hr)
  cases h with
  | @dies _ timeout connect quiet hq =>
      have htrace : (((c.setTimeout timeout).setConnect connect).emits quiet).trace = c.trace :=
        trace_quiet hq
      refine ⟨fun hn => ?_, ha.server, ha.client⟩
      rw [htrace] at hn
      exact ha.packets hn
  | connectPending => exact ha
  | logsIn hs h => exact h.leaves hs (hplay _ hs) (hfresh _ hs nofun) ho ha
  | plays hs h =>
      exact h.leaves (hplay _ hs) (hfresh _ hs nofun) (hclient _ hs nofun) (hserver _ hs nofun)
  | lists hs h =>
      refine h.leaves ?_ (hfresh _ hs nofun) (hclient _ hs nofun) (hserver _ hs nofun)
      exact (hplay _ hs).trans (Config.listed_eq_true (hi.mode (.inr hs)))
  | relays hs hd hdead he h => exact h.leaves hs (hplay _ hs) ho hb'
  | establishes hs h =>
      exact h.opens.leaves (hclient _ hs nofun) (hserver _ hs nofun)
        (splice_of_fields (hfresh _ hs nofun) rfl rfl)
  | judges hs hj h =>
      exact h.opens.leaves (hclient _ hs nofun) (hserver _ hs nofun)
        (splice_of_fields (hfresh _ hs nofun) rfl rfl)

end Connection

/-! ## Transparency -/

/-- An `Extended` packet: the command, its own length, a sub-command and a body. -/
structure IsExtended (packet : List UInt8) (subCommand : ℕ) (body : List UInt8) : Prop where
  command : packet.head? = some Command.extended.byte
  length : unpackBE16 (packet.drop 1) = packet.length
  subCommand : unpackBE16 (packet.drop 3) = subCommand
  body : packet.drop sizeofExtended = body

/-- The packet behind its command. -/
theorem drop_remoteIpPacket (host : List UInt8) :
    (remoteIpPacket host).drop 1 = packBE16 (15 + host.length) ++
      (packBE16 0x5a6a ++ (remoteIpKey ++ host)) := by
  have hlen : sizeofExtended + (remoteIpKey ++ host).length = 15 + host.length := by
    rw [List.length_append, ← Nat.add_assoc]
    rfl
  unfold remoteIpPacket
  rw [hlen, List.cons_append, List.cons_append, List.drop_succ_cons, List.drop_zero, List.append_assoc]

theorem isExtended_remoteIpPacket {host : List UInt8} (h : host.length < 65520) :
    IsExtended (remoteIpPacket host) 0x5a6a (remoteIpKey ++ host) := by
  have hdrop : (remoteIpPacket host).drop 3 = packBE16 0x5a6a ++ (remoteIpKey ++ host) := by
    rw [show 3 = 1 + (packBE16 (15 + host.length)).length from rfl, ← List.drop_drop,
      drop_remoteIpPacket]
    exact List.drop_left
  refine ⟨rfl, ?_, ?_, ?_⟩
  · rw [drop_remoteIpPacket, unpackBE16_packBE16, length_remoteIpPacket, Nat.mod_eq_of_lt (by omega)]
  · rw [hdrop, unpackBE16_packBE16]
  · rw [show sizeofExtended = 3 + (packBE16 0x5a6a).length from rfl, ← List.drop_drop, hdrop]
    exact List.drop_left

/-- The packet that is put between seed and login, if there is one. -/
theorem remoteIp_cases (config : Config) {host : List UInt8} (h : host.length < 65520) :
    remoteIp config host = [] ∨ config.sendRemoteIp = true ∧ host ≠ [] ∧
      IsExtended (remoteIp config host) 0x5a6a (remoteIpKey ++ host) := by
  unfold remoteIp
  split
  · rename_i hc
    obtain ⟨hsend, hne⟩ := Bool.and_eq_true_iff.mp hc
    refine .inr ⟨hsend, fun he => ?_, isExtended_remoteIpPacket h⟩
    rw [he] at hne
    cases hne
  · exact .inl rfl

/-- The vector of the initial packets, as a part of the client's stream. -/
theorem vector_of_stream (config : Config) (host stream : List UInt8) :
    initialPacketsVector config host (stream.take initialSize) =
      stream.take 21 ++ remoteIp config host ++ (stream.take 83).drop 21 := by
  unfold initialPacketsVector sizeofSeed initialSize
  rw [List.take_take, Nat.min_eq_left (by omega)]

/-- **The proxy is transparent for a connection.** The game server gets the seed, an optional packet
with the client's address, the login and what follows it; with a server list the client's choice is
replaced by another one. The client gets a refusal, or what the game server sends; with a server list,
the daemon's own list in the place of the server's. -/
structure Transparent (setup : Setup) (c : Connection) : Prop where
  server : ∃ inserted : List UInt8,
    (inserted = [] ∨ setup.config.sendRemoteIp = true ∧ c.remoteHost ≠ [] ∧
      IsExtended inserted 0x5a6a (remoteIpKey ++ c.remoteHost)) ∧
    written .server c.log <+: c.client.stream.take 21 ++ inserted ++
      (c.client.stream.take 83).drop 21 ++
      (if setup.config.serverList = [] then [] else [0xa0, 0x00, 0x00]) ++
      c.client.stream.drop (83 + if setup.config.serverList = [] then 0 else 3)
  client : written .client c.log <+: accountLoginRejectPacket ∨
    setup.config.serverList = [] ∧ written .client c.log <+: c.server.stream ∨
    setup.config.serverList ≠ [] ∧ written .client c.log <+:
      serverListPacket setup.config.serverList ++
        c.server.stream.drop (unpackBE16 (c.server.stream.drop 1))

namespace Connection

variable {c : Connection}

theorem serverWritten_of_session (h : Session setup c.remoteHost c.initialPackets.bytes s c.relayed t)
    (ha : Aligned setup c) (ht : t ≠ [] → c.trace ≠ []) :
    preamble setup c.remoteHost c.initialPackets.bytes s .server ++ c.relayed .server <+:
      c.client.stream.take 21 ++ remoteIp setup.config c.remoteHost ++
      (c.client.stream.take 83).drop 21 ++
      (if setup.config.serverList = [] then [] else [0xa0, 0x00, 0x00]) ++
      c.client.stream.drop (83 + if setup.config.serverList = [] then 0 else 3) := by
  have hnil : s ≠ .ready → c.relayed .server = [] := fun hs => congrFun (h.sent_nil hs) .server
  have hlogged : s ≠ .initial → c.Logged := fun hs => ha.packets (ht (h.ne_nil hs))
  have hplay : (if setup.config.serverList = [] then ([] : List UInt8) else [0xa0, 0x00, 0x00]) =
      if setup.config.listed then playServerPacket else [] := by
    split
    · rename_i hl
      rw [Config.listed_eq_false hl]
      rfl
    · rename_i hl
      rw [Config.listed_eq_true hl]
      rfl
  have hskip : (if setup.config.serverList = [] then 0 else 3) =
      if setup.config.listed then sizeofPlayServer else 0 := by
    split
    · rename_i hl
      rw [Config.listed_eq_false hl]
      rfl
    · rename_i hl
      rw [Config.listed_eq_true hl]
      rfl
  rw [hplay, hskip, ← vector_of_stream, List.append_assoc]
  cases s with
  | initial | checkCredentials | serverList | connecting =>
      rw [hnil nofun]
      exact List.nil_prefix
  | sendPlayServer =>
      rw [hnil nofun, show _ = _ from hlogged nofun]
      exact (List.prefix_append_right_inj _).mpr List.nil_prefix
  | ready =>
      rw [show _ = _ from hlogged nofun]
      change (_ ++ _) ++ _ <+: _
      rw [List.append_assoc]
      exact (List.prefix_append_right_inj _).mpr ((List.prefix_append_right_inj _).mpr ha.server)

theorem clientWritten_of_session (h : Session setup c.remoteHost c.initialPackets.bytes s c.relayed t)
    (ha : Aligned setup c) (hs : s ≠ .initial) (hs' : s ≠ .checkCredentials) :
    setup.config.serverList = [] ∧
        preamble setup c.remoteHost c.initialPackets.bytes s .client ++ c.relayed .client <+:
          c.server.stream ∨
      setup.config.serverList ≠ [] ∧
        preamble setup c.remoteHost c.initialPackets.bytes s .client ++ c.relayed .client <+:
          serverListPacket setup.config.serverList ++
            c.server.stream.drop (unpackBE16 (c.server.stream.drop 1)) := by
  have hpre : preamble setup c.remoteHost c.initialPackets.bytes s .client =
      if setup.config.listed then serverListPacket setup.config.serverList else [] := by
    cases s <;> first | rfl | exact (hs rfl).elim | exact (hs' rfl).elim
  have hrelayed := ha.client
  rw [hpre]
  by_cases hl : setup.config.serverList = []
  · rw [Config.listed_eq_false hl] at hrelayed ⊢
    exact .inl ⟨hl, hrelayed⟩
  · rw [Config.listed_eq_true hl] at hrelayed ⊢
    exact .inr ⟨hl, (List.prefix_append_right_inj _).mpr hrelayed⟩

theorem Past.transparency (h : Past setup c) (ha : Aligned setup c)
    (hhost : c.remoteHost.length < 65520) (hw : WholeSends c.log) : Transparent setup c := by
  have htrace : ∀ peer, written peer c.log = written peer c.trace := fun peer =>
    (written_visible peer c.log).symm
  have hwt : WholeSends c.trace := fun a hm => hw a (List.mem_of_mem_filter hm)
  rcases Ended.written h hwt with ⟨s, t, hs, hpre, hwritten⟩ | ⟨hserver, hclient⟩
  · refine ⟨⟨_, remoteIp_cases setup.config hhost, ?_⟩, ?_⟩
    · rw [htrace, hwritten]
      refine serverWritten_of_session hs ha fun hne he => hne ?_
      rw [he] at hpre
      exact List.prefix_nil.mp hpre
    · rw [htrace, hwritten]
      by_cases hearly : s = .initial ∨ s = .checkCredentials
      · have hready : s ≠ .ready := by rcases hearly with he | he <;> rw [he] <;> exact nofun
        rw [hs.sent_nil hready]
        rcases hearly with he | he <;> subst he <;> exact .inl List.nil_prefix
      · obtain ⟨hne, hne'⟩ := not_or.mp hearly
        exact .inr (clientWritten_of_session hs ha hne hne')
  · rw [← htrace] at hserver hclient
    refine ⟨⟨[], .inl rfl, ?_⟩, .inl hclient⟩
    rw [hserver]
    exact List.nil_prefix

end Connection

namespace Instance

open Connection

variable {inst : Instance} {inputs : List Input} {id : ℕ} {c : Connection}

theorem aligned_run (h : Run setup inputs inst) (hc : inst.Has id c) : Aligned setup c := by
  have hh : Holds (fun c => Traced setup c ∧ Offsets c) (Aligned setup) inst := by
    refine holds_run (fun remoteHost perClient => ⟨traced_new _ _, ?_⟩)
      (fun side bytes hL => ⟨hL.1.arrive side bytes, ?_⟩)
      (fun {_ _ _ _ _ r} hi hb hb' hL hr => ?_) (fun {stock c} ha => ?_) h
    · exact ⟨fun _ => rfl, fun hn => (hn rfl).elim, [], rfl, rfl⟩
    · cases side with
      | client => exact ⟨hL.2.filling, hL.2.client, hL.2.server⟩
      | server => exact ⟨hL.2.filling, hL.2.client, hL.2.server⟩
    · have htraces := hr.traces hi hb hL.1
      have hleaves := hr.leaves hi hb hb' hL.1 hL.2
      cases r with
      | alive c' => exact ⟨htraces, hleaves⟩
      | destroyed c' => exact hleaves
      | crashed why c' => exact hleaves
    · refine ⟨fun hn => ?_, ha.server, ha.client⟩
      rw [trace_destructor] at hn
      exact ha.packets hn
  rcases hc with hc | hc
  · obtain ⟨ht, ho⟩ := hh.live hc
    exact ho.aligned_of_inv ((good_run h).live hc) (books_run h hc) ht
  · exact hh.gone hc

/-- **The proxy is stream-transparent.** In every run, for every connection whose `Send`s were never
cut short. -/
theorem transparent (h : Run setup inputs inst) (hc : inst.Has id c)
    (hhost : c.remoteHost.length < 65520) (hw : WholeSends c.log) : Transparent setup c := by
  have ha := aligned_run h hc
  have hh := sessions_run h
  rcases hc with hc | hc
  · exact Past.transparency (.stopped (hh.live hc).session) ha hhost hw
  · exact Past.transparency (hh.gone hc) ha hhost hw

/-- A daemon with one game server in its list, which passes the client's address on. -/
def sampleProxy : Setup where
  config := { gameServer := .null, serverList := [⟨[0x73], .inet 0x7f000001 2593⟩], sendRemoteIp := true }
  util := .ascii

/-- A client logs in, chooses the server and sends `0x42`; the game server answers with its own list
and `0x43`. -/
def sampleProxied : List Input :=
  [.accept 0 [0x31] none, .arrive 0 .client (samplePackets ++ [0xa0, 0x00, 0x00, 0x42]),
    .event 0 (.incomingReady { read := true }) { read := .upTo 82 },
    .event 0 (.checkDone true) {},
    .event 0 (.incomingReady { read := true }) { read := .upTo 2 },
    .event 0 .connectSuccess {},
    .arrive 0 .server (0xa8 :: 0x00 :: 0x2e :: List.replicate 43 0 ++ [0x43]),
    .event 0 (.outgoingReady { read := true })
      { readCommand := .upTo 0, readLength := .upTo 1, discard := [.upTo 42] },
    .event 0 (.incomingReady { read := true }) { receive := .upTo 0, sendReceived := .upTo 0 },
    .event 0 (.outgoingReady { read := true }) { receive := .upTo 0, sendReceived := .upTo 0 }]

theorem transparent_of_sample :
    ∃ inst c, Run sampleProxy sampleProxied inst ∧ inst.conns 0 = .live c ∧ c.state = .ready ∧
      c.remoteHost.length < 65520 ∧ WholeSends c.log ∧
      written .server c.log = samplePackets.take 21 ++ remoteIpPacket [0x31] ++ samplePackets.drop 21 ++
        [0xa0, 0x00, 0x00, 0x42] ∧
      (written .client c.log).drop 46 = [0x43] ∧ Transparent sampleProxy c := by
  obtain ⟨inst, c, h, hc, hs, hhost, hwhole, hserver, hclient⟩ : ∃ inst c,
      Run sampleProxy sampleProxied inst ∧ inst.conns 0 = .live c ∧ c.state = .ready ∧
      c.remoteHost = [0x31] ∧ c.log.all Act.whole = true ∧
      written .server c.log = samplePackets.take 21 ++ remoteIpPacket [0x31] ++ samplePackets.drop 21 ++
        [0xa0, 0x00, 0x00, 0x42] ∧
      (written .client c.log).drop 46 = [0x43] := ⟨_, _, rfl, rfl, rfl, rfl, rfl, rfl, rfl⟩
  have hlen : c.remoteHost.length < 65520 := by
    rw [hhost]
    decide
  have hw : WholeSends c.log := List.all_eq_true.mp hwhole
  exact ⟨inst, c, h, hc, hs, hlen, hw, hserver, hclient, transparent h (.inl hc) hlen hw⟩

end Instance

end UoLogin
