import UoLogin.Handshake

set_option autoImplicit false

/-!
# The server list handshake and TCP segments

`ReceivePlayServer` and `ReceiveServerList` read a packet at once: what has not arrived with the first
segment is not waited for, unlike in `ReceiveLoginPackets`. Here the bytes of a peer become readable in
chunks, every chunk with a callback of its socket, and a read returns what is there.

* `playServerChunks_cons`, `serverListChunks_cons`: what the handshake comes to, given the first chunk
  and the rest;
* **`handshake_segmentation_iff`**: two ways to split the streams come to the same exactly if they
  agree on whether the first chunks hold the whole packets, a client that sends no valid `PlayServer`
  packet apart;
* `split_play_server_destroys`: a `PlayServer` packet in two segments.
-/

namespace UoLogin

/-- Every read returns what is there. -/
def Answers.prompt (ans : Answers) : Answers :=
  { ans with
    read := .upTo 2
    readCommand := .upTo 0
    readLength := .upTo 1
    discard := List.replicate 65536 (.upTo 1023) }

/-- Nothing fails but the reads. -/
structure Answers.Smooth (ans : Answers) : Prop where
  connect : ans.connect ≠ .fails
  sendInitial : ans.sendInitial ≠ .fails
  sendPlayServer : ans.sendPlayServer ≠ .fails

theorem Answers.Smooth.prompt {ans : Answers} (h : ans.Smooth) : ans.prompt.Smooth :=
  ⟨h.connect, h.sendInitial, h.sendPlayServer⟩

/-- What a handshake comes to. -/
inductive Handshake where
  | destroyed
  | goesOn (outgoingAddress : SocketAddress) (unread : List UInt8)
  | crashed (why : Stop)
  deriving DecidableEq

def Result.handshake (peer : Side) : Result → Handshake
  | .alive c => .goesOn c.outgoingAddress (c.inbound peer).queue
  | .destroyed _ => .destroyed
  | .crashed why _ => .crashed why

namespace Connection

variable {setup : Setup} {ans : Answers} {stock : PipeStock UInt8} {c c' : Connection}

/-- A chunk becomes readable: in state `s` the socket's handler is called, later the bytes wait. -/
def deliver (s : State) (peer : Side) (handler : Connection → Result) :
    Result → List UInt8 → Result
  | .alive c, chunk => if c.state = s then handler (c.arrive peer chunk) else .alive (c.arrive peer chunk)
  | r, _ => r

/-- The client's bytes in `SERVER_LIST`. -/
def playServerChunks (setup : Setup) (stock : PipeStock UInt8) (ans : Answers) (c : Connection)
    (chunks : List (List UInt8)) : Handshake :=
  (chunks.foldl (deliver .serverList .client fun c =>
    (c.onIncomingReady setup stock { read := true } ans.prompt).2) (.alive c)).handshake .client

/-- The game server's bytes in `SEND_PLAY_SERVER`. -/
def serverListChunks (stock : PipeStock UInt8) (ans : Answers) (c : Connection)
    (chunks : List (List UInt8)) : Handshake :=
  (chunks.foldl (deliver .sendPlayServer .server fun c =>
    (c.onOutgoingReady stock { read := true } ans.prompt).2) (.alive c)).handshake .server

/-! ## After the first chunk -/

section Deliver

variable {s : State} {peer : Side} {handler : Connection → Result}

theorem arrive_nil (c : Connection) (peer : Side) : c.arrive peer [] = c := by
  cases peer <;> simp [arrive, setInbound, inbound]

theorem arrive_arrive (c : Connection) (peer : Side) (as bs : List UInt8) :
    (c.arrive peer as).arrive peer bs = c.arrive peer (as ++ bs) := by
  cases peer <;> simp [arrive, setInbound, inbound]

theorem deliver_alive (hs : c.state ≠ s) (rest : List (List UInt8)) :
    rest.foldl (deliver s peer handler) (.alive c) = .alive (c.arrive peer rest.flatten) := by
  induction rest generalizing c with
  | nil => exact congrArg Result.alive (c.arrive_nil peer).symm
  | cons chunk rest ih =>
      have hstate : (c.arrive peer chunk).state ≠ s := by cases peer <;> exact hs
      rw [List.foldl_cons, deliver, if_neg hs, ih hstate, arrive_arrive, List.flatten_cons]

/-- A connection that has gone on collects the rest. -/
theorem deliver_rest (hs : c.state ≠ s) (rest : List (List UInt8)) :
    (rest.foldl (deliver s peer handler) (.alive c)).handshake peer =
      .goesOn c.outgoingAddress ((c.inbound peer).queue ++ rest.flatten) := by
  rw [deliver_alive hs]
  cases peer <;> rfl

/-- Nobody listens any more. -/
theorem deliver_stopped {r : Result} (hr : ∀ c, r ≠ .alive c) (rest : List (List UInt8)) :
    rest.foldl (deliver s peer handler) r = r := by
  induction rest with
  | nil => rfl
  | cons chunk rest ih =>
      cases r with
      | alive c => exact (hr c rfl).elim
      | destroyed c | crashed why c => exact ih

theorem deliver_destroyed (c : Connection) (rest : List (List UInt8)) :
    (rest.foldl (deliver s peer handler) (.destroyed c)).handshake peer = .destroyed := by
  rw [deliver_stopped fun c' h => Result.noConfusion h]
  rfl

end Deliver

/-! ## The client's packet -/

theorem onSocketConnectSuccess_smooth (setup : Setup) (hans : ans.Smooth) (hs : c.state = .connecting)
    (hf : c.initialPacketsFill = initialSize) :
    ∃ c', c.onSocketConnectSuccess setup ans = .alive c' := by
  obtain ⟨bytes, ha, h⟩ := sendTo_of_ne_fails hans.sendInitial c .server (c.vector setup)
  have hpos : (bytes.length : ℤ) > 0 := by
    have := List.length_pos_iff.mpr ((SendChoice.accepted_cases ha).2 (vector_ne_nil setup c))
    omega
  change c.sendInitialPackets setup ans = _ at h
  unfold onSocketConnectSuccess
  rw [if_neg (not_not.mpr hs), if_neg (not_not.mpr hf), h]
  simp only [if_pos hpos]
  split
  · exact ⟨_, rfl⟩
  · exact ⟨_, rfl⟩

/-- A connect that does not fail goes on, with the client's bytes as they are. -/
theorem connectTo_smooth (setup : Setup) (hans : ans.Smooth) (address : SocketAddress) (hs : c.state = .connecting)
    (hf : c.initialPacketsFill = initialSize) :
    ∃ c', c.connectTo setup ans address = .alive c' ∧ c'.outgoingAddress = c.outgoingAddress ∧
      c'.client = c.client ∧ c'.state ≠ .serverList := by
  unfold connectTo
  cases hconnect : ans.connect with
  | pending =>
      refine ⟨_, rfl, rfl, rfl, fun he => ?_⟩
      cases hs.symm.trans he
  | fails => exact (hans.connect hconnect).elim
  | succeeds =>
      obtain ⟨c', hc'⟩ := onSocketConnectSuccess_smooth (c := c.emit (.connect address)) setup hans hs hf
      have hestablishes : Establishes setup (c.emit (.connect address)) _ :=
        onSocketConnectSuccess_establishes ans hs hf
      rw [hc'] at hestablishes
      refine ⟨c', hc', ?_⟩
      cases hestablishes with
      | sendPlayServer => exact ⟨rfl, rfl, nofun⟩
      | ready => exact ⟨rfl, rfl, nofun⟩

/-- The callback of the client's socket in `SERVER_LIST`. -/
theorem onIncomingReady_serverList (hi : Inv setup c) (hs : c.state = .serverList) :
    (c.onIncomingReady setup stock { read := true } ans).2 = c.receivePlayServer setup ans := by
  have hconnect : ¬ c.connect.isSome = true := fun h => nomatch hs.symm.trans (hi.connect_iff.mp h)
  have hinitial : ¬ c.state = .initial := fun he => nomatch hs.symm.trans he
  unfold onIncomingReady
  rw [if_neg (by decide), if_neg hconnect, if_neg hinitial, if_pos hs]
  rfl

/-- **What the client's chunks come to.** -/
theorem playServerChunks_cons (hi : Inv setup c) (hs : c.state = .serverList)
    (hq : c.client.queue = []) (hans : ans.Smooth) {first : List UInt8} (hfirst : first ≠ [])
    (rest : List (List UInt8)) :
    playServerChunks setup stock ans c (first :: rest) =
      match chosenServer setup.config (first.take 3) with
      | none => .destroyed
      | some server => .goesOn server.address (first.drop 3 ++ rest.flatten) := by
  have hia : Inv setup (c.arrive .client first) := Instance.inv_arrive hi .client first
  have hqa : (c.arrive .client first).client.queue = first := by
    change c.client.queue ++ first = first
    rw [hq, List.nil_append]
  unfold playServerChunks
  rw [List.foldl_cons, deliver, if_pos hs,
    onIncomingReady_serverList hia (show (c.arrive .client first).state = _ from hs),
    receivePlayServer_upTo hia hs (by rw [hqa]; exact hfirst) (Nat.le_refl 2) rfl, hqa]
  cases hserver : chosenServer setup.config (first.take 3) with
  | none => exact deliver_destroyed _ rest
  | some server =>
      obtain ⟨c', hc', haddress, hclient, hstate⟩ := connectTo_smooth
        (c := (c.arrive .client first).chosen (first.take 3) (first.drop 3) server) setup hans.prompt
        server.address rfl (hia.full fun he => nomatch hs.symm.trans he)
      simp only
      rw [hc', deliver_rest hstate, haddress]
      change Handshake.goesOn server.address (c'.client.queue ++ _) = _
      rw [hclient]
      rfl

/-! ## The game server's packet -/

/-- The callback of the game server's socket in `SEND_PLAY_SERVER`. -/
theorem onOutgoingReady_sendPlayServer (hi : Inv setup c) (hs : c.state = .sendPlayServer) :
    (c.onOutgoingReady stock { read := true } ans).2 = c.receiveServerList ans := by
  have hin : c.incoming.defined = true := by
    refine (congrArg Resources.incoming hi.resources).trans ?_
    rw [hs]
    rfl
  have hconnect : ¬ c.connect.isSome = true := fun h => nomatch hs.symm.trans (hi.connect_iff.mp h)
  unfold onOutgoingReady
  rw [if_neg ((Bool.not_eq_false _).mpr hin), if_neg hconnect, if_neg (by decide), if_pos hs]

/-- A stream that begins with a `ServerList` packet, as far as its header tells. -/
structure BeginsWithList (stream : List UInt8) : Prop where
  command : hasCommand stream .serverList = true
  length : sizeofServerList ≤ unpackBE16 (stream.drop 1)

/-- The length field of a packet that has arrived. -/
theorem unpackBE16_of_append {packet : List UInt8} (h : 3 ≤ packet.length) (more : List UInt8) :
    unpackBE16 ((packet ++ more).drop 1) = unpackBE16 (packet.drop 1) := by
  match packet with
  | [] | [_] | [_, _] => exact absurd h (by simp)
  | cmd :: hi :: lo :: rest => rfl

theorem reads_prompt (ans : Answers) : Reads ans.prompt where
  command := ⟨0, rfl⟩
  length := ⟨1, Nat.le_refl 1, rfl⟩
  discard := by
    refine ⟨List.replicate 65536 1023, ?_, ?_⟩
    · rw [List.length_replicate]
      omega
    · rw [List.map_replicate]
      rfl

/-- The game server's packet is in the first chunk, or the connection is destroyed. -/
theorem receiveServerList_prompt (hans : ans.Smooth) (more : List UInt8)
    (hstream : BeginsWithList (c.server.queue ++ more)) :
    (unpackBE16 ((c.server.queue ++ more).drop 1) ≤ c.server.queue.length ∧
      ∃ c', c.receiveServerList ans.prompt = .alive c' ∧ c'.outgoingAddress = c.outgoingAddress ∧
        c'.server.queue = c.server.queue.drop (unpackBE16 ((c.server.queue ++ more).drop 1)) ∧
        c'.state = .ready) ∨
    (c.server.queue.length < unpackBE16 ((c.server.queue ++ more).drop 1) ∧
      ∃ c', c.receiveServerList ans.prompt = .destroyed c') := by
  have hmin := hstream.length
  unfold sizeofServerList at hmin
  rcases Nat.lt_or_ge c.server.queue.length (unpackBE16 ((c.server.queue ++ more).drop 1)) with
    hlt | hle
  · refine .inr ⟨hlt, receiveServerList_destroyed fun ⟨hlist, _⟩ => ?_⟩
    -- a list that is there is complete
    have hsize := hlist.size
    have hcomplete := hlist.complete
    unfold sizeofServerList at hsize
    rw [unpackBE16_of_append (show 3 ≤ c.server.queue.length by omega) more] at hlt
    omega
  · have hthree : 3 ≤ c.server.queue.length := by omega
    have hfield := unpackBE16_of_append hthree more
    have hlist : HoldsList c.server.queue := by
      refine ⟨?_, hfield ▸ hstream.length, hfield ▸ hle⟩
      have hcommand := beq_iff_eq.mp hstream.command
      rwa [List.head?_append_of_ne_nil _ (List.ne_nil_of_length_pos (by omega))] at hcommand
    obtain ⟨sent, hresult⟩ := receiveServerList_of_holdsList (reads_prompt ans) hlist
      hans.prompt.sendPlayServer
    exact .inl ⟨hle, _, hresult, rfl, by rw [hfield]; rfl, rfl⟩

/-- **What the game server's chunks come to.** -/
theorem serverListChunks_cons (hi : Inv setup c) (hs : c.state = .sendPlayServer)
    (hq : c.server.queue = []) (hans : ans.Smooth) {first : List UInt8} {rest : List (List UInt8)}
    (hstream : BeginsWithList (first ++ rest.flatten)) :
    serverListChunks stock ans c (first :: rest) =
      if unpackBE16 ((first ++ rest.flatten).drop 1) ≤ first.length then
        .goesOn c.outgoingAddress
          (first.drop (unpackBE16 ((first ++ rest.flatten).drop 1)) ++ rest.flatten)
      else .destroyed := by
  have hia : Inv setup (c.arrive .server first) := Instance.inv_arrive hi .server first
  have hqa : (c.arrive .server first).server.queue = first := by
    change c.server.queue ++ first = first
    rw [hq, List.nil_append]
  unfold serverListChunks
  rw [List.foldl_cons, deliver, if_pos hs,
    onOutgoingReady_sendPlayServer hia (show (c.arrive .server first).state = _ from hs)]
  have hcases := receiveServerList_prompt (c := c.arrive .server first) hans rest.flatten
    (by rw [hqa]; exact hstream)
  rw [hqa] at hcases
  rcases hcases with ⟨hle, c', hc', haddress, hrest, hready⟩ | ⟨hlt, c', hc'⟩
  · have hstate : c'.state ≠ .sendPlayServer := fun he => nomatch hready.symm.trans he
    rw [if_pos hle, hc', deliver_rest hstate, haddress]
    change Handshake.goesOn c.outgoingAddress (c'.server.queue ++ _) = _
    rw [hrest]
  · rw [if_neg (Nat.not_le.mpr hlt), hc']
    exact deliver_destroyed c' rest

/-! ## Two ways to split a stream -/

section Split

variable {chunks chunks' : List (List UInt8)}

/-- Chunks that are not empty. -/
def Split (chunks : List (List UInt8)) : Prop := ∀ chunk ∈ chunks, chunk ≠ []

theorem Split.flatten_eq_nil (h : Split chunks) (hnil : chunks.flatten = []) : chunks = [] := by
  cases chunks with
  | nil => rfl
  | cons first rest => exact (h first List.mem_cons_self (List.append_eq_nil_iff.mp hnil).1).elim

/-- The first chunk. -/
def firstChunk (chunks : List (List UInt8)) : List UInt8 := chunks.headD []

/-- What the client's stream comes to, given whether its first chunk holds a whole packet. -/
def playServerOutcome (config : Config) (stream : List UInt8) (whole : Bool) : Handshake :=
  match chosenServer config (stream.take 3) with
  | none => .destroyed
  | some server => if whole then .goesOn server.address (stream.drop 3) else .destroyed

theorem playServerChunks_eq (hi : Inv setup c) (hs : c.state = .serverList)
    (hq : c.client.queue = []) (hans : ans.Smooth) (h : Split chunks) (hne : chunks ≠ []) :
    playServerChunks setup stock ans c chunks =
      playServerOutcome setup.config chunks.flatten (decide (3 ≤ (firstChunk chunks).length)) := by
  cases chunks with
  | nil => exact (hne rfl).elim
  | cons first rest =>
      rw [playServerChunks_cons hi hs hq hans (h first List.mem_cons_self)]
      unfold playServerOutcome
      change _ = match chosenServer setup.config ((first ++ rest.flatten).take 3) with
        | none => Handshake.destroyed
        | some server => if decide (3 ≤ first.length) = true then
            .goesOn server.address ((first ++ rest.flatten).drop 3) else .destroyed
      by_cases hlen : 3 ≤ first.length
      · rw [List.take_append_of_le_length hlen, List.drop_append_of_le_length hlen]
        simp only [hlen, decide_true, if_true]
      · have hnone : chosenServer setup.config (first.take 3) = none := by
          unfold chosenServer
          refine if_neg fun hpacket => ?_
          have hthree : (first.take 3).length = 3 := hpacket.1
          rw [List.length_take] at hthree
          omega
        rw [hnone]
        simp only [hlen, decide_false, Bool.false_eq_true, if_false]
        split <;> rfl

theorem playServerChunks_eq_iff (hi : Inv setup c) (hs : c.state = .serverList)
    (hq : c.client.queue = []) (hans : ans.Smooth) (h : Split chunks) (h' : Split chunks')
    (heq : chunks.flatten = chunks'.flatten) :
    playServerChunks setup stock ans c chunks = playServerChunks setup stock ans c chunks' ↔
      ((chosenServer setup.config (chunks.flatten.take 3)).isSome = true →
        (3 ≤ (firstChunk chunks).length ↔ 3 ≤ (firstChunk chunks').length)) := by
  by_cases hnil : chunks.flatten = []
  · rw [h.flatten_eq_nil hnil, h'.flatten_eq_nil (heq ▸ hnil)]
    exact iff_of_true rfl fun _ => Iff.rfl
  · have hne : chunks ≠ [] := fun he => hnil (by rw [he]; rfl)
    have hne' : chunks' ≠ [] := fun he => hnil (by rw [heq, he]; rfl)
    rw [playServerChunks_eq hi hs hq hans h hne, playServerChunks_eq hi hs hq hans h' hne', ← heq]
    unfold playServerOutcome
    cases chosenServer setup.config (chunks.flatten.take 3) with
    | none => simp
    | some server =>
        by_cases hw : 3 ≤ (firstChunk chunks).length <;>
          by_cases hw' : 3 ≤ (firstChunk chunks').length <;> simp [hw, hw']

theorem serverListChunks_eq_iff (hi : Inv setup c) (hs : c.state = .sendPlayServer)
    (hq : c.server.queue = []) (hans : ans.Smooth) (heq : chunks.flatten = chunks'.flatten)
    (hstream : BeginsWithList chunks.flatten) :
    serverListChunks stock ans c chunks = serverListChunks stock ans c chunks' ↔
      (unpackBE16 (chunks.flatten.drop 1) ≤ (firstChunk chunks).length ↔
        unpackBE16 (chunks.flatten.drop 1) ≤ (firstChunk chunks').length) := by
  have hvalue : ∀ {chunks : List (List UInt8)}, BeginsWithList chunks.flatten →
      serverListChunks stock ans c chunks =
        if unpackBE16 (chunks.flatten.drop 1) ≤ (firstChunk chunks).length then
          .goesOn c.outgoingAddress (chunks.flatten.drop (unpackBE16 (chunks.flatten.drop 1)))
        else .destroyed := by
    intro chunks hstream
    cases chunks with
    | nil => exact absurd hstream.length (by decide)
    | cons first rest =>
        rw [serverListChunks_cons hi hs hq hans hstream]
        change _ = if unpackBE16 ((first ++ rest.flatten).drop 1) ≤ first.length then
          Handshake.goesOn c.outgoingAddress
            ((first ++ rest.flatten).drop (unpackBE16 ((first ++ rest.flatten).drop 1))) else _
        split
        · rename_i hle
          rw [List.drop_append_of_le_length hle]
        · rfl
  rw [hvalue hstream, hvalue (heq ▸ hstream), ← heq]
  generalize unpackBE16 (chunks.flatten.drop 1) = size
  by_cases hw : size ≤ (firstChunk chunks).length <;>
    by_cases hw' : size ≤ (firstChunk chunks').length <;> simp [hw, hw']

end Split

end Connection

namespace Instance

open Connection

variable {setup : Setup} {ans : Answers} {stock : PipeStock UInt8} {inst inst' : Instance}
  {inputs inputs' : List Input}

/-- **The handshake and the segments.** For a connection in `SERVER_LIST` and one in
`SEND_PLAY_SERVER`, two ways to split the client's stream and the game server's stream come to the
same exactly if they agree on whether the first chunks hold the packets. -/
theorem handshake_segmentation_iff (h : Run setup inputs inst) (h' : Run setup inputs' inst')
    {id id' : ℕ} {c c' : Connection} (hc : inst.conns id = .live c) (hc' : inst'.conns id' = .live c')
    (hs : c.state = .serverList) (hs' : c'.state = .sendPlayServer) (hq : c.client.queue = [])
    (hq' : c'.server.queue = []) (hans : ans.Smooth)
    {client client' server server' : List (List UInt8)} (hclient : Split client)
    (hclient' : Split client') (heq : client.flatten = client'.flatten)
    (heq' : server.flatten = server'.flatten) (hstream : BeginsWithList server.flatten) :
    (playServerChunks setup stock ans c client = playServerChunks setup stock ans c client' ∧
      serverListChunks stock ans c' server = serverListChunks stock ans c' server') ↔
    ((chosenServer setup.config (client.flatten.take 3)).isSome = true →
        (3 ≤ (firstChunk client).length ↔ 3 ≤ (firstChunk client').length)) ∧
      (unpackBE16 (server.flatten.drop 1) ≤ (firstChunk server).length ↔
        unpackBE16 (server.flatten.drop 1) ≤ (firstChunk server').length) :=
  and_congr
    (playServerChunks_eq_iff ((good_run h).live hc) hs hq hans hclient hclient' heq)
    (serverListChunks_eq_iff ((good_run h').live hc') hs' hq' hans heq' hstream)

theorem handshake_segmentation_of_sample :
    ∃ inst inst' c c', Run sampleListed sampleServerList inst ∧ Run sampleListed sampleChosen inst' ∧
      inst.conns 0 = .live c ∧ inst'.conns 0 = .live c' ∧
      playServerChunks sampleListed {} {} c [[0xa0, 0, 0], [7]] =
        playServerChunks sampleListed {} {} c [[0xa0, 0, 0, 7]] ∧
      serverListChunks {} {} c' [sampleList, [7]] = serverListChunks {} {} c' [sampleList ++ [7]] := by
  obtain ⟨inst, inst', c, c', h, h', hc, hc', hs, hs', hq, hq'⟩ : ∃ inst inst' c c',
      Run sampleListed sampleServerList inst ∧ Run sampleListed sampleChosen inst' ∧
        inst.conns 0 = .live c ∧ inst'.conns 0 = .live c' ∧ c.state = .serverList ∧
        c'.state = .sendPlayServer ∧ c.client.queue = [] ∧ c'.server.queue = [] :=
    ⟨_, _, _, _, rfl, rfl, rfl, rfl, rfl, rfl, rfl, rfl⟩
  have hans : Answers.Smooth {} := ⟨by decide, by decide, by decide⟩
  have hclient : Split [[0xa0, 0, 0], [7]] := by simp [Split]
  have hclient' : Split [[0xa0, 0, 0, 7]] := by simp [Split]
  have hstream : BeginsWithList (List.flatten [sampleList, [7]]) := ⟨rfl, by decide⟩
  have heq' : List.flatten [sampleList, [7]] = List.flatten [sampleList ++ [7]] := rfl
  exact ⟨inst, inst', c, c', h, h', hc, hc',
    (handshake_segmentation_iff h h' hc hc' hs hs' hq hq' hans hclient hclient' rfl heq' hstream).mpr
      ⟨fun _ => by decide, by decide⟩⟩

/-- **A `PlayServer` packet in two segments** is refused; in one segment it is accepted. The same goes
for the game server's list. -/
theorem split_play_server_destroys :
    ∃ inst inst' c c', Run sampleListed sampleServerList inst ∧ Run sampleListed sampleChosen inst' ∧
      inst.conns 0 = .live c ∧ c.state = .serverList ∧ c.client.queue = [] ∧
      inst'.conns 0 = .live c' ∧ c'.state = .sendPlayServer ∧ c'.server.queue = [] ∧
      playServerChunks sampleListed {} {} c [[0xa0, 0, 0]] = .goesOn (.inet 0 2593) [] ∧
      playServerChunks sampleListed {} {} c [[0xa0], [0, 0]] = .destroyed ∧
      serverListChunks {} {} c' [sampleList] = .goesOn (.inet 0 2593) [] ∧
      serverListChunks {} {} c' [sampleList.take 45, [0]] = .destroyed :=
  ⟨_, _, _, _, rfl, rfl, rfl, rfl, rfl, rfl, rfl, rfl, rfl, rfl, rfl, rfl⟩

end Instance

end UoLogin
