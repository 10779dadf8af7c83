import UoLogin.Instance
import UoLogin.ServerList

set_option autoImplicit false

/-!
# The server list handshake

The client chooses a server of the list by a `PlayServer` packet, and the daemon skips the list of
the game server and answers it with a `PlayServer` packet of its own. Both packets are read at once.

* `receivePlayServer_of_some`, **`server_list_round_trip`**: the server that the client chooses;
* `discard_chunks`, `discardReads`: the loop of `Discard`, however many bytes its reads return;
* `receiveServerList_of_holdsList`, **`skip_server_list`**: what `ReceiveServerList` takes off the stream.
-/

namespace UoLogin

namespace Connection

variable {setup : Setup} {ans : Answers} {c : Connection}

/-! ## Reads that return what is there -/

theorem readNoWait_upTo (s : Inbound) {max n : ℕ} (h : max ≤ n + 1) :
    s.readNoWait max (.upTo n) = if (s.queue.take max).isEmpty then (none, s)
      else (some (s.queue.take max), s.advance (s.queue.take max) (s.queue.drop max)) := by
  simp only [Inbound.readNoWait, Nat.min_eq_right h]
  rfl

/-! ## The client's packet -/

/-- The game server that a packet chooses. -/
def chosenServer (config : Config) (packet : List UInt8) : Option GameServerConfig :=
  if packet.length = sizeofPlayServer ∧ hasCommand packet .playServer = true then
    config.serverList[unpackBE16 (packet.drop 1)]?
  else none

theorem sendTo_of_ne_fails {ch : SendChoice} (h : ch ≠ .fails) (c : Connection) (peer : Side)
    (buffer : List UInt8) :
    ∃ bytes, ch.accepted buffer = some bytes ∧
      c.sendTo peer buffer ch = ((bytes.length : ℤ), c.emit (.send peer buffer bytes)) := by
  cases ch with
  | all => exact ⟨_, rfl, rfl⟩
  | short n => exact ⟨_, rfl, rfl⟩
  | fails => exact (h rfl).elim

/-- The read that fails. -/
theorem receivePlayServer_of_none (hi : Inv setup c) (hs : c.state = .serverList) {s : Inbound}
    (hread : c.client.readNoWait sizeofPlayServer ans.read = (none, s)) :
    c.receivePlayServer setup ans = .destroyed (c.setInbound s .client) := by
  unfold receivePlayServer
  rw [if_neg (not_not.mpr hs), if_neg (hi.mode (.inl hs)),
    if_neg (not_not.mpr (hi.full fun he => nomatch hs.symm.trans he)), hread]

/-- The read that returns a packet, or a part of it. -/
theorem receivePlayServer_of_some (hi : Inv setup c) (hs : c.state = .serverList)
    {packet rest : List UInt8} (hread : c.client.readNoWait sizeofPlayServer ans.read =
      (some packet, c.client.advance packet rest)) :
    c.receivePlayServer setup ans =
      match chosenServer setup.config packet with
      | none => .destroyed (c.setInbound (c.client.advance packet rest) .client)
      | some server => (c.chosen packet rest server).connectTo setup ans server.address := by
  unfold receivePlayServer
  rw [if_neg (not_not.mpr hs), if_neg (hi.mode (.inl hs)),
    if_neg (not_not.mpr (hi.full fun he => nomatch hs.symm.trans he)), hread]
  unfold chosenServer
  simp only
  by_cases hpacket : packet.length = sizeofPlayServer ∧ hasCommand packet .playServer = true
  · rw [if_pos hpacket, if_neg]
    · rfl
    · rintro (h | h)
      · exact h hpacket.1
      · exact Bool.false_ne_true (h.symm.trans hpacket.2)
  · rw [if_neg hpacket, if_pos]
    by_contra hor
    obtain ⟨hlen, hcmd⟩ := not_or.mp hor
    exact hpacket ⟨not_not.mp hlen, (Bool.not_eq_false _).mp hcmd⟩

/-- The read returns all three bytes if they are there. -/
theorem receivePlayServer_upTo (hi : Inv setup c) (hs : c.state = .serverList)
    (hne : c.client.queue ≠ []) {k : ℕ} (hk : 2 ≤ k) (hread : ans.read = .upTo k) :
    c.receivePlayServer setup ans =
      match chosenServer setup.config (c.client.queue.take 3) with
      | none => .destroyed (c.setInbound (c.client.advance (c.client.queue.take 3)
          (c.client.queue.drop 3)) .client)
      | some server => (c.chosen (c.client.queue.take 3) (c.client.queue.drop 3) server).connectTo setup
          ans server.address := by
  refine receivePlayServer_of_some hi hs ?_
  have hsome : ¬ (c.client.queue.take sizeofPlayServer).isEmpty = true := by
    rw [List.isEmpty_iff]
    intro hnil
    rcases List.take_eq_nil_iff.mp hnil with h | h
    · cases h
    · exact hne h
  rw [hread]
  exact (readNoWait_upTo c.client (Nat.succ_le_succ hk)).trans (if_neg hsome)

/-- The client's packet with the index `i`. -/
def playServer (i : ℕ) : List UInt8 := Command.playServer.byte :: packBE16 i

theorem chosenServer_playServer (config : Config) {i : ℕ} (hi : i < 65536) :
    chosenServer config (playServer i) = config.serverList[i]? := by
  have hindex := unpackBE16_packBE16 i []
  rw [List.append_nil, Nat.mod_eq_of_lt hi] at hindex
  unfold chosenServer
  rw [if_pos ⟨rfl, rfl⟩]
  exact congrArg (config.serverList[·]?) hindex

/-! ## Skipping a list -/

/-- `Discard` with the counter and the bytes of each of its reads. -/
def discardReads : Inbound → ℕ → List ReadChoice → List (ℕ × List UInt8)
  | _, 0, _ => []
  | _, _ + 1, [] => []
  | s, n + 1, ch :: rest =>
    match s.readNoWait (min 1024 (n + 1)) ch with
    | (none, _) => []
    | (some bytes, s) => (n + 1, bytes) :: discardReads s (n + 1 - bytes.length) rest

/-- A read that returns something, if there is something. -/
theorem readNoWait_chunk (s : Inbound) {max : ℕ} (hmax : 0 < max) (k : ℕ) :
    (s.queue = [] ∧ s.readNoWait max (.upTo k) = (none, s)) ∨
    ∃ m, 0 < m ∧ m ≤ max ∧ m ≤ s.queue.length ∧ s.readNoWait max (.upTo k) =
      (some (s.queue.take m), s.advance (s.queue.take m) (s.queue.drop m)) := by
  rcases s.readNoWait_cases max (.upTo k) with h | ⟨bytes, rest, hne, hlen, hq, h⟩
  · refine .inl ⟨?_, h⟩
    by_contra hq
    have hpos := List.length_pos_iff.mpr hq
    have hsome : ¬ (s.queue.take (min (k + 1) max)).isEmpty = true := by
      rw [List.isEmpty_iff, ← List.length_eq_zero_iff, List.length_take]
      omega
    rw [Inbound.readNoWait, if_neg hsome] at h
    cases h
  · refine .inr ⟨bytes.length, List.length_pos_iff.mpr hne, hlen, ?_, ?_⟩
    · rw [hq, List.length_append]
      exact Nat.le_add_right _ _
    · rw [h, hq, List.take_left, List.drop_left]

/-- **`Discard` takes what it was asked for**, or all there is, in whatever pieces. -/
theorem discard_chunks (choices : List ℕ) {n : ℕ} (hn : n ≤ choices.length) (s : Inbound) :
    discard s n (choices.map .upTo) =
      (decide (n ≤ s.queue.length), s.advance (s.queue.take n) (s.queue.drop n)) := by
  induction choices generalizing n s with
  | nil =>
      obtain rfl := Nat.le_zero.mp hn
      simp [discard, Inbound.advance]
  | cons k choices ih =>
      cases n with
      | zero => simp [discard, Inbound.advance]
      | succ n =>
          rw [List.map_cons, discard]
          rcases readNoWait_chunk s (show 0 < min 1024 (n + 1) by omega) k with
            ⟨hq, h⟩ | ⟨m, hpos, hmax, hm, h⟩
          · simp only [h, hq, List.take_nil, List.drop_nil, List.length_nil]
            obtain ⟨consumed, queue⟩ := s
            obtain rfl : queue = [] := hq
            simp [Inbound.advance]
          · rw [List.length_cons] at hn
            have hlen : (s.queue.take m).length = m := List.length_take_of_le hm
            have hsum : m + (n + 1 - m) = n + 1 := by omega
            simp only [h, hlen]
            rw [ih (by omega)]
            simp only [Inbound.advance, List.append_assoc, List.drop_drop, List.length_drop, hsum]
            rw [← List.take_add, hsum]
            refine congrArg₂ Prod.mk ?_ rfl
            exact decide_eq_decide.mpr (by omega)

/-- The counter of `Discard` is never less than what a read returns. -/
theorem discardReads_le (choices : List ReadChoice) (n : ℕ) (s : Inbound) :
    (discardReads s n choices).length ≤ n ∧
      ∀ read ∈ discardReads s n choices, 0 < read.2.length ∧ read.2.length ≤ read.1 ∧ read.1 ≤ n := by
  induction choices generalizing n s with
  | nil => cases n <;> simp [discardReads]
  | cons ch choices ih =>
      cases n with
      | zero => simp [discardReads]
      | succ n =>
          rw [discardReads]
          rcases s.readNoWait_cases (min 1024 (n + 1)) ch with h | ⟨bytes, rest, hne, hlen, hq, h⟩
          · simp [h]
          · have hpos := List.length_pos_iff.mpr hne
            obtain ⟨hcount, hreads⟩ := ih (n + 1 - bytes.length) (s.advance bytes rest)
            simp only [h]
            refine ⟨by rw [List.length_cons]; omega, fun read hread => ?_⟩
            rcases List.mem_cons.mp hread with rfl | hread
            · exact ⟨hpos, hlen.trans (Nat.min_le_right _ _), Nat.le_refl _⟩
            · obtain ⟨h₁, h₂, h₃⟩ := hreads read hread
              exact ⟨h₁, h₂, by omega⟩

/-- The reads take exactly what `Discard` takes off the stream. -/
theorem consumed_discard (choices : List ReadChoice) (n : ℕ) (s : Inbound) :
    (discard s n choices).2.consumed =
      s.consumed ++ (discardReads s n choices).flatMap Prod.snd := by
  induction choices generalizing n s with
  | nil => cases n <;> simp [discard, discardReads]
  | cons ch choices ih =>
      cases n with
      | zero => simp [discard, discardReads]
      | succ n =>
          rw [discard, discardReads]
          rcases s.readNoWait_cases (min 1024 (n + 1)) ch with h | ⟨bytes, rest, -, -, -, h⟩
          · simp [h]
          · simp only [h, ih, Inbound.advance, List.flatMap_cons, List.append_assoc]

/-- The reads of `ReceiveServerList` return what there is; those of `Discard` may return any part of
it. -/
structure Reads (ans : Answers) : Prop where
  command : ∃ k, ans.readCommand = .upTo k
  length : ∃ k, 1 ≤ k ∧ ans.readLength = .upTo k
  discard : ∃ choices : List ℕ, 65535 ≤ choices.length ∧ ans.discard = choices.map .upTo

theorem readNoWait_command (h : Reads ans) {s : Inbound} {cmd : UInt8} {rest : List UInt8}
    (hq : s.queue = cmd :: rest) :
    s.readNoWait 1 ans.readCommand = (some [cmd], s.advance [cmd] rest) := by
  obtain ⟨k, hk⟩ := h.command
  rw [hk, readNoWait_upTo s (by omega), hq]
  rfl

theorem unpackBE16_lt (hi lo : UInt8) : unpackBE16 [hi, lo] < 65536 := by
  have h₁ := hi.toNat_lt
  have h₂ := lo.toNat_lt
  have hvalue : unpackBE16 [hi, lo] = hi.toNat * 256 + lo.toNat := rfl
  omega

/-- The three reads of `ReceiveServerList` succeed. -/
theorem receiveServerList_reads {s₁ s₂ s₃ : Inbound} {bytes : List UInt8}
    (hcommand : c.server.readNoWait 1 ans.readCommand = (some [Command.serverList.byte], s₁))
    (hlength : s₁.readNoWait 2 ans.readLength = (some bytes, s₂)) (htwo : bytes.length = 2)
    (hsize : sizeofServerList ≤ unpackBE16 bytes)
    (hdiscard : discard s₂ (unpackBE16 bytes - 3) ans.discard = (true, s₃))
    (hsend : ans.sendPlayServer ≠ .fails) :
    ∃ sent, c.receiveServerList ans = .alive ((((c.setInbound s₃ .server).emit
      (.send .server playServerPacket sent)).mapEvent .scheduleRead .client).setState .ready) := by
  obtain ⟨sent, -, h⟩ := sendTo_of_ne_fails hsend (c.setInbound s₃ .server) .server playServerPacket
  have hpos : ¬ (sent.length : ℤ) < 0 := by omega
  refine ⟨sent, ?_⟩
  unfold receiveServerList
  simp only [hcommand, server_setInbound, setInbound_setInbound]
  rw [if_neg (not_not.mpr rfl)]
  simp only [hlength]
  rw [if_neg (by omega)]
  simp only [hdiscard, Bool.true_eq_false, if_false, h, if_neg hpos]

/-- The list is there: it is taken off the stream. -/
theorem receiveServerList_of_whole (h : Reads ans) (hsend : ans.sendPlayServer ≠ .fails)
    {hi lo : UInt8} {body rest : List UInt8}
    (hq : c.server.queue = (Command.serverList.byte :: hi :: lo :: body) ++ rest)
    (hsize : sizeofServerList ≤ unpackBE16 [hi, lo]) (hbody : body.length = unpackBE16 [hi, lo] - 3) :
    ∃ sent, c.receiveServerList ans =
      .alive (c.played (Command.serverList.byte :: hi :: lo :: body) rest sent) := by
  obtain ⟨k, hk, hlength⟩ := h.length
  obtain ⟨choices, hchoices, hdiscard⟩ := h.discard
  have hread : (c.server.advance [Command.serverList.byte] (hi :: lo :: (body ++ rest))).readNoWait 2
      ans.readLength = (some [hi, lo], (c.server.advance [Command.serverList.byte]
        (hi :: lo :: (body ++ rest))).advance [hi, lo] (body ++ rest)) := by
    rw [hlength, readNoWait_upTo _ (by omega)]
    rfl
  have hskip := discard_chunks choices
    (show unpackBE16 [hi, lo] - 3 ≤ choices.length by have := unpackBE16_lt hi lo; omega)
    ((c.server.advance [Command.serverList.byte] (hi :: lo :: (body ++ rest))).advance [hi, lo]
      (body ++ rest))
  rw [← hdiscard, ← hbody] at hskip
  have htrue : decide (body.length ≤ (body ++ rest).length) = true := by simp
  change _ = (decide (body.length ≤ (body ++ rest).length), Inbound.advance _
    ((body ++ rest).take body.length) ((body ++ rest).drop body.length)) at hskip
  rw [htrue, List.take_left, List.drop_left, hbody] at hskip
  obtain ⟨sent, hresult⟩ := receiveServerList_reads (readNoWait_command h hq) hread rfl hsize hskip
    hsend
  refine ⟨sent, hresult.trans ?_⟩
  rw [Inbound.advance_advance, Inbound.advance_advance]
  rfl

/-- The stream begins with a whole list. -/
structure HoldsList (stream : List UInt8) : Prop where
  command : stream.head? = some Command.serverList.byte
  size : sizeofServerList ≤ unpackBE16 (stream.drop 1)
  complete : unpackBE16 (stream.drop 1) ≤ stream.length

/-- The list at the beginning of a stream. -/
theorem HoldsList.split {stream : List UInt8} (h : HoldsList stream) :
    ∃ hi lo body, stream = (Command.serverList.byte :: hi :: lo :: body) ++
        stream.drop (unpackBE16 (stream.drop 1)) ∧
      sizeofServerList ≤ unpackBE16 [hi, lo] ∧ body.length = unpackBE16 [hi, lo] - 3 ∧
      Command.serverList.byte :: hi :: lo :: body = stream.take (unpackBE16 (stream.drop 1)) := by
  obtain ⟨hcommand, hsize, hcomplete⟩ := h
  match stream with
  | [] | [_] | [_, _] => exact absurd hsize (by simp [unpackBE16, sizeofServerList])
  | cmd :: hi :: lo :: more =>
      obtain rfl : cmd = Command.serverList.byte := Option.some.inj hcommand
      change sizeofServerList ≤ unpackBE16 [hi, lo] at hsize
      change unpackBE16 [hi, lo] ≤ (Command.serverList.byte :: hi :: lo :: more).length at hcomplete
      change ∃ hi' lo' body, _ = _ ++ (Command.serverList.byte :: hi :: lo :: more).drop
        (unpackBE16 [hi, lo]) ∧ _ ∧ _ ∧ _ = (Command.serverList.byte :: hi :: lo :: more).take
          (unpackBE16 [hi, lo])
      have hmin := hsize
      unfold sizeofServerList at hmin
      have hthree : unpackBE16 [hi, lo] = (unpackBE16 [hi, lo] - 3) + 3 := by omega
      have htake : (Command.serverList.byte :: hi :: lo :: more).take (unpackBE16 [hi, lo]) =
          Command.serverList.byte :: hi :: lo :: more.take (unpackBE16 [hi, lo] - 3) := by
        rw [hthree]
        rfl
      refine ⟨hi, lo, more.take (unpackBE16 [hi, lo] - 3), ?_, hsize, ?_, htake.symm⟩
      · rw [← htake, List.take_append_drop]
      · simp only [List.length_cons] at hcomplete
        rw [List.length_take]
        omega

theorem holdsList_of_append {hi lo : UInt8} {body rest : List UInt8}
    (hsize : sizeofServerList ≤ unpackBE16 [hi, lo]) (hbody : body.length = unpackBE16 [hi, lo] - 3) :
    HoldsList ((Command.serverList.byte :: hi :: lo :: body) ++ rest) := by
  refine ⟨rfl, hsize, ?_⟩
  unfold sizeofServerList at hsize
  change unpackBE16 [hi, lo] ≤ _
  simp only [List.length_append, List.length_cons]
  omega

/-- **What `ReceiveServerList` takes off the stream.** -/
theorem receiveServerList_of_holdsList (h : Reads ans) (hlist : HoldsList c.server.queue)
    (hsend : ans.sendPlayServer ≠ .fails) :
    ∃ sent, c.receiveServerList ans =
      .alive (c.played (c.server.queue.take (unpackBE16 (c.server.queue.drop 1)))
        (c.server.queue.drop (unpackBE16 (c.server.queue.drop 1))) sent) := by
  obtain ⟨hi, lo, body, hq, hsize, hbody, htake⟩ := hlist.split
  rw [← htake]
  exact receiveServerList_of_whole h hsend hq hsize hbody

/-- Without a whole list, or when the answer cannot be sent, the connection is destroyed. -/
theorem receiveServerList_destroyed
    (h : ¬ (HoldsList c.server.queue ∧ ans.sendPlayServer ≠ .fails)) :
    ∃ c', c.receiveServerList ans = .destroyed c' := by
  rcases receiveServerList_cases (c := c) ans with
    ⟨s, -, hresult⟩ | ⟨hi, lo, body, rest, bytes, hq, hsize, hbody, hsent, -⟩
  · exact ⟨_, hresult⟩
  · refine (h ⟨hq ▸ holdsList_of_append hsize hbody, fun hfails => ?_⟩).elim
    rw [hfails] at hsent
    cases hsent

theorem holdsList_serverListPacket {list : List GameServerConfig} (hne : list ≠ [])
    (hle : list.length ≤ 1638) (suffix : List UInt8) :
    HoldsList (serverListPacket list ++ suffix) ∧
      unpackBE16 ((serverListPacket list ++ suffix).drop 1) = (serverListPacket list).length := by
  have hfield : unpackBE16 ((serverListPacket list ++ suffix).drop 1) =
      (serverListPacket list).length := by
    rw [← ((serverListPacket_fields_iff hne).mpr hle).1]
    rfl
  have hpos := List.length_pos_iff.mpr hne
  refine ⟨⟨rfl, ?_, ?_⟩, hfield⟩
  · rw [hfield, length_serverListPacket]
    unfold sizeofServerList
    omega
  · rw [hfield, List.length_append]
    exact Nat.le_add_right _ _

end Connection

namespace Instance

open Connection

/-- **The server list and the choice.** The packet for `n` servers has `6 + 40 n` bytes; its fields
say so exactly up to 1638 servers, and up to there a client that reads it gets the indices and the
names. An index below `n` chooses the server of that index, and any other one is refused. -/
theorem server_list_round_trip (setup : Setup) (hne : setup.config.serverList ≠ [])
    (hnames : ∀ src ∈ setup.config.serverList, 0 ∉ src.name) :
    (serverListPacket setup.config.serverList).length = 6 + 40 * setup.config.serverList.length ∧
    ((unpackBE16 ((serverListPacket setup.config.serverList).drop 1) =
          (serverListPacket setup.config.serverList).length ∧
        unpackBE16 ((serverListPacket setup.config.serverList).drop 4) =
          setup.config.serverList.length) ↔
      setup.config.serverList.length ≤ 1638) ∧
    (setup.config.serverList.length ≤ 1638 → ∀ rest,
      decodeServerList (serverListPacket setup.config.serverList ++ rest) =
        some ((6 + 40 * setup.config.serverList.length, setup.config.serverList.mapIdx
          fun i src => ⟨i, src.name.take (min 31 src.name.length) ++
            List.replicate (32 - min 31 src.name.length) 0⟩), rest)) ∧
    ∀ inputs inst id c (ans : Answers) k i rest, Run setup inputs inst → inst.conns id = .live c →
      c.state = .serverList → ans.read = .upTo k → 2 ≤ k → i < 65536 →
      c.client.queue = playServer i ++ rest →
      (∀ h : i < setup.config.serverList.length,
        ∃ c' : Connection, c'.outgoingAddress = setup.config.serverList[i].address ∧
          c'.state = .connecting ∧ c'.client.queue = rest ∧
          c.receivePlayServer setup ans =
            c'.connectTo setup ans setup.config.serverList[i].address) ∧
      (setup.config.serverList.length ≤ i → ∃ c', c.receivePlayServer setup ans = .destroyed c') := by
  refine ⟨length_serverListPacket, serverListPacket_fields_iff hne,
    fun hle rest => reads_serverListPacket hne hnames hle rest, ?_⟩
  intro inputs inst id c ans k i rest hrun hc hs hread hk hi hq
  have htake : c.client.queue.take 3 = playServer i := by
    rw [hq]
    rfl
  have hreceive := receivePlayServer_upTo ((good_run hrun).live hc) hs
    (by rw [hq]; exact List.cons_ne_nil _ _) hk hread
  rw [htake, chosenServer_playServer setup.config hi] at hreceive
  refine ⟨fun hlt => ?_, fun hge => ?_⟩
  · rw [List.getElem?_eq_getElem hlt] at hreceive
    refine ⟨_, rfl, rfl, ?_, hreceive⟩
    change c.client.queue.drop 3 = rest
    rw [hq]
    rfl
  · rw [List.getElem?_eq_none hge] at hreceive
    exact ⟨_, hreceive⟩

/-- A configuration with one game server. -/
def sampleListed : Setup := sampleSetup [{ name := [], address := .inet 0 2593 }]

/-- The client has the server list. -/
def sampleServerList : List Input := sampleCheck ++ [.event 0 (.checkDone true) {}]

/-- The client has chosen, and the game server has answered the connect. -/
def sampleChosen : List Input :=
  sampleServerList ++ [.arrive 0 .client [0xa0, 0, 0],
    .event 0 (.incomingReady { read := true }) { read := .upTo 2 }, .event 0 .connectSuccess {}]

/-- The shortest server list. -/
def sampleList : List UInt8 := 0xa8 :: 0 :: 46 :: List.replicate 43 0

/-- The client chooses a server that is not in the list. -/
def sampleWrongChoice : List Input := sampleServerList ++ [.arrive 0 .client [0xa0, 0, 1]]

/-- One game server without a name: its index is 0, and 1 is refused. -/
theorem server_list_round_trip_of_sample :
    (serverListPacket sampleListed.config.serverList).length = 46 ∧
      decodeServerList (serverListPacket sampleListed.config.serverList ++ [7]) =
        some ((46, [⟨0, List.replicate 32 0⟩]), [7]) ∧
      ∃ inst c, Run sampleListed sampleWrongChoice inst ∧
        inst.conns 0 = .live c ∧
        ∃ c', c.receivePlayServer sampleListed { read := .upTo 2 } = .destroyed c' := by
  have h := server_list_round_trip sampleListed (by decide) (by decide)
  obtain ⟨inst, c, hrun, hc, hs, hq⟩ : ∃ inst c,
      Run sampleListed sampleWrongChoice inst ∧
        inst.conns 0 = .live c ∧ c.state = .serverList ∧ c.client.queue = playServer 1 ++ [] :=
    ⟨_, _, rfl, rfl, rfl, rfl⟩
  refine ⟨h.1, h.2.2.1 (by decide) [7], inst, c, hrun, hc, ?_⟩
  exact (h.2.2.2 _ inst 0 c _ 2 1 [] hrun hc hs rfl (le_refl 2) (by decide) hq).2 (by decide)

/-- **Skipping the game server's list.** `ReceiveServerList` goes to `READY`, after the answer, exactly
if the stream begins with a whole list and the answer is sent; then just the list has been taken off.
In every other case the connection is destroyed. In whatever pieces the loop of `Discard` reads, it
takes the bytes it was asked for, and no read returns more than its counter says; and the list that
`SendServerList` builds, for up to 1638 servers, is taken off exactly. -/
theorem skip_server_list (c : Connection) (ans : Answers) (h : Reads ans) :
    (c.server.queue.head? = some 0xa8 ∧ 46 ≤ unpackBE16 (c.server.queue.drop 1) ∧
        unpackBE16 (c.server.queue.drop 1) ≤ c.server.queue.length ∧ ans.sendPlayServer ≠ .fails →
      ∃ c' sent, c.receiveServerList ans = .alive c' ∧ c'.state = .ready ∧
        c'.log = c.log ++ [.send .server [0xa0, 0, 0] sent, .state .ready] ∧
        c'.server.consumed =
          c.server.consumed ++ c.server.queue.take (unpackBE16 (c.server.queue.drop 1)) ∧
        c'.server.queue = c.server.queue.drop (unpackBE16 (c.server.queue.drop 1))) ∧
    (¬ (c.server.queue.head? = some 0xa8 ∧ 46 ≤ unpackBE16 (c.server.queue.drop 1) ∧
        unpackBE16 (c.server.queue.drop 1) ≤ c.server.queue.length ∧
        ans.sendPlayServer ≠ .fails) →
      ∃ c', c.receiveServerList ans = .destroyed c') ∧
    (∀ (s : Inbound) n (choices : List ℕ), n ≤ choices.length →
      discard s n (choices.map .upTo) =
        (decide (n ≤ s.queue.length), s.advance (s.queue.take n) (s.queue.drop n)) ∧
      (discardReads s n (choices.map .upTo)).flatMap Prod.snd = s.queue.take n ∧
      (discardReads s n (choices.map .upTo)).length ≤ n ∧
      ∀ read ∈ discardReads s n (choices.map .upTo), 0 < read.2.length ∧ read.2.length ≤ read.1) ∧
    ∀ list suffix, list ≠ [] → list.length ≤ 1638 →
      c.server.queue = serverListPacket list ++ suffix → ans.sendPlayServer ≠ .fails →
      ∃ c', c.receiveServerList ans = .alive c' ∧ c'.state = .ready ∧ c'.server.queue = suffix := by
  refine ⟨?_, ?_, ?_, ?_⟩
  · rintro ⟨hcommand, hsize, hcomplete, hsend⟩
    obtain ⟨sent, hresult⟩ := receiveServerList_of_holdsList h ⟨hcommand, hsize, hcomplete⟩ hsend
    refine ⟨_, sent, hresult, rfl, ?_, rfl, rfl⟩
    exact List.append_assoc _ _ _
  · intro hnot
    refine receiveServerList_destroyed fun ⟨hlist, hsend⟩ => hnot ?_
    exact ⟨hlist.command, hlist.size, hlist.complete, hsend⟩
  · intro s n choices hn
    have hdiscard := discard_chunks choices hn s
    obtain ⟨hcount, hreads⟩ := discardReads_le (choices.map .upTo) n s
    refine ⟨hdiscard, ?_, hcount, fun read hread => ⟨(hreads read hread).1, (hreads read hread).2.1⟩⟩
    have hconsumed := consumed_discard (choices.map .upTo) n s
    rw [hdiscard] at hconsumed
    exact (List.append_cancel_left hconsumed).symm
  · intro list suffix hne hle hq hsend
    obtain ⟨hlist, hfield⟩ := holdsList_serverListPacket hne hle suffix
    rw [← hq] at hlist hfield
    obtain ⟨sent, hresult⟩ := receiveServerList_of_holdsList h hlist hsend
    refine ⟨_, hresult, rfl, ?_⟩
    change c.server.queue.drop (unpackBE16 (c.server.queue.drop 1)) = suffix
    rw [hfield, hq, List.drop_left]

/-- The answers with which every read returns one byte, or what it was asked for. -/
def sampleReads : Answers :=
  { readCommand := .upTo 0, readLength := .upTo 1,
    discard := (List.replicate 65535 0).map .upTo }

/-- The game server sends its list, and something after it. -/
def sampleListArrives : List Input := sampleChosen ++ [.arrive 0 .server (sampleList ++ [7])]

theorem skip_server_list_of_sample :
    Reads sampleReads ∧
      ∃ inst c c', Run sampleListed sampleListArrives inst ∧
        inst.conns 0 = .live c ∧ c.receiveServerList sampleReads = .alive c' ∧ c'.state = .ready ∧
        c'.server.queue = [7] := by
  have hreads : Reads sampleReads :=
    ⟨⟨0, rfl⟩, ⟨1, le_refl 1, rfl⟩, _, List.length_replicate.ge, rfl⟩
  obtain ⟨inst, c, hrun, hc, hq⟩ : ∃ inst c,
      Run sampleListed sampleListArrives inst ∧
        inst.conns 0 = .live c ∧ c.server.queue = sampleList ++ [7] :=
    ⟨_, _, rfl, rfl, rfl⟩
  have hskip := (skip_server_list c sampleReads hreads).1
  rw [hq] at hskip
  obtain ⟨c', sent, hresult, hstate, -, -, hrest⟩ := hskip ⟨rfl, by decide, by decide, by decide⟩
  exact ⟨hreads, inst, c, c', hrun, hc, hresult, hstate, hrest⟩

end Instance

end UoLogin
