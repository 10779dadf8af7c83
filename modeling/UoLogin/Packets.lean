import Mathlib.Data.List.Basic

set_option autoImplicit false

/-!
# Packets

The packets of the login protocol as byte lists, the fields that the daemon reads out of them, and
the configuration they are built from.

* `extractString`, `isValidUsername`: the checks on a login;
* `username`, `password`: the fields of an `AccountLogin` packet;
* `serverListPacket`: what `SendServerList` builds; `remoteIpPacket`, `initialPacketsVector`: what
  `SendInitialPackets` writes.

`CharUtil` stands for the character predicates of libcommon.
-/

namespace UoLogin

/-- The commands that the daemon knows; any byte may arrive in their place. -/
inductive Command where
  | accountLogin
  | accountLoginReject
  | playServer
  | serverList
  | extended
  | seed
  deriving DecidableEq, Repr

/-- The wire form of a command. -/
def Command.byte : Command → UInt8
  | .accountLogin => 0x80
  | .accountLoginReject => 0x82
  | .playServer => 0xa0
  | .serverList => 0xa8
  | .extended => 0xbf
  | .seed => 0xef

/-! ## Numbers -/

/-- `PackedBE16`: the number modulo `2 ^ 16`, high byte first. -/
def packBE16 (n : ℕ) : List UInt8 := [UInt8.ofNat (n / 256), UInt8.ofNat n]

/-- The value of a `PackedBE16`. -/
def unpackBE16 : List UInt8 → ℕ
  | hi :: lo :: _ => hi.toNat * 256 + lo.toNat
  | _ => 0

/-- `PackedBE32`. -/
def packBE32 (n : ℕ) : List UInt8 := packBE16 (n / 65536) ++ packBE16 n

@[simp] theorem length_packBE16 (n : ℕ) : (packBE16 n).length = 2 := rfl

theorem unpackBE16_packBE16 (n : ℕ) (rest : List UInt8) :
    unpackBE16 (packBE16 n ++ rest) = n % 65536 := by
  change (UInt8.ofNat (n / 256)).toNat * 256 + (UInt8.ofNat n).toNat = _
  rw [UInt8.toNat_ofNat', UInt8.toNat_ofNat']
  omega

/-! ## Strings -/

/-- What the daemon uses of libcommon's `CharUtil`: `IsPrintableASCII` accepts the printable ASCII
characters and nothing outside ASCII or below the space, `ToUpperASCII` only changes lower-case
letters. -/
structure CharUtil where
  isPrintableASCII : UInt8 → Bool
  toUpperASCII : UInt8 → UInt8
  printable_ascii : ∀ ch, isPrintableASCII ch = true → 0x20 ≤ ch ∧ ch < 0x80
  ascii_printable : ∀ ch, 0x20 ≤ ch → ch < 0x7f → isPrintableASCII ch = true
  toUpper_eq : ∀ ch, toUpperASCII ch = if 0x61 ≤ ch ∧ ch ≤ 0x7a then ch - 0x20 else ch

/-- A `CharUtil` to run the model with. -/
def CharUtil.ascii : CharUtil where
  isPrintableASCII ch := decide (0x20 ≤ ch ∧ ch < 0x80)
  toUpperASCII ch := if 0x61 ≤ ch ∧ ch ≤ 0x7a then ch - 0x20 else ch
  printable_ascii := fun _ h => of_decide_eq_true h
  ascii_printable := fun _ hge hlt => decide_eq_true ⟨hge, UInt8.lt_trans hlt (by decide)⟩
  toUpper_eq := fun _ => rfl

/-- `UO::ExtractString`: the bytes before the first NUL. -/
def extractString (src : List UInt8) : List UInt8 := src.takeWhile (· ≠ 0)

/-- `IsValidUsername`. -/
def isValidUsername (util : CharUtil) (s : List UInt8) : Bool :=
  !s.isEmpty && s.all util.isPrintableASCII

theorem length_extractString_le (src : List UInt8) : (extractString src).length ≤ src.length :=
  (List.takeWhile_sublist _).length_le

/-! ## The login packets -/

/-- `sizeof(struct uo_packet_seed)`. -/
def sizeofSeed : ℕ := 21

/-- `sizeof(struct uo_packet_account_login)`. -/
def sizeofAccountLogin : ℕ := 62

/-- The size of `Connection::initial_packets`, `sizeof(ExpectedPackets)`. -/
def initialSize : ℕ := 83

/-- The field `credentials.username` of an `AccountLogin` packet. -/
def usernameField (login : List UInt8) : List UInt8 := (login.drop 1).take 30

/-- The field `credentials.password` of an `AccountLogin` packet. -/
def passwordField (login : List UInt8) : List UInt8 := (login.drop 31).take 30

/-- The username of an `AccountLogin` packet. -/
def username (login : List UInt8) : List UInt8 := extractString (usernameField login)

/-- The password of an `AccountLogin` packet. -/
def password (login : List UInt8) : List UInt8 := extractString (passwordField login)

/-- The packet starts with this command. -/
def hasCommand (packet : List UInt8) (cmd : Command) : Bool := packet.head? == some cmd.byte

theorem length_username_le (login : List UInt8) : (username login).length ≤ 30 := by
  refine Nat.le_trans (length_extractString_le _) ?_
  unfold usernameField
  rw [List.length_take]
  omega

/-- `SendAccountLoginReject`: the reason is a bad password. -/
def accountLoginRejectPacket : List UInt8 := [Command.accountLoginReject.byte, 0x03]

/-! ## Configuration -/

/-- A socket address; `other` stands for every family that the daemon does not look into. -/
inductive SocketAddress where
  | null
  | inet (address : BitVec 32) (port : ℕ)
  | inet6 (address : BitVec 128) (port : ℕ)
  | other (family : ℕ) (data : List UInt8)
  deriving DecidableEq, Repr

structure GameServerConfig where
  name : List UInt8
  address : SocketAddress
  deriving DecidableEq, Repr

/-- The options that a connection reads. -/
structure Config where
  gameServer : SocketAddress
  serverList : List GameServerConfig
  sendRemoteIp : Bool
  deriving DecidableEq, Repr

/-- Whether the daemon offers a list of game servers. -/
def Config.listed (config : Config) : Bool := !config.serverList.isEmpty

theorem Config.listed_eq_true {config : Config} (h : config.serverList ≠ []) :
    config.listed = true := by
  unfold listed
  rw [List.isEmpty_eq_false_iff.mpr h]
  rfl

theorem Config.listed_eq_false {config : Config} (h : config.serverList = []) :
    config.listed = false := by
  unfold listed
  rw [h]
  rfl

/-! ## The server list -/

/-- `sizeof(struct uo_fragment_server_info)`. -/
def sizeofServerInfo : ℕ := 40

/-- `sizeof(struct uo_packet_server_list)`, with one server in it. -/
def sizeofServerList : ℕ := 46

/-- `sizeof(struct uo_packet_play_server)`. -/
def sizeofPlayServer : ℕ := 3

/-- What `snprintf()` leaves in the zeroed field `name[32]`: the C string, cut to 31 bytes. -/
def nameField (name : List UInt8) : List UInt8 :=
  let s := (extractString name).take 31
  s ++ List.replicate (32 - s.length) 0

/-- One `uo_fragment_server_info`: index, name, `full` and `timezone` zeroed, address. -/
def serverInfo (i : ℕ) (src : GameServerConfig) : List UInt8 :=
  packBE16 i ++ nameField src.name ++ [0, 0] ++ packBE32 0xdeadbeef

/-- The fragments of a server list, the first one with index `i`. -/
def serverInfos : ℕ → List GameServerConfig → List UInt8
  | _, [] => []
  | i, src :: rest => serverInfo i src ++ serverInfos (i + 1) rest

/-- The size that `SendServerList` computes. -/
def serverListSize (list : List GameServerConfig) : ℕ :=
  sizeofServerList + (list.length - 1) * sizeofServerInfo

/-- The packet that `SendServerList` builds. -/
def serverListPacket (list : List GameServerConfig) : List UInt8 :=
  Command.serverList.byte :: packBE16 (serverListSize list) ++ [0x5d] ++ packBE16 list.length ++
    serverInfos 0 list

/-- The `PlayServer` packet that selects the first server. -/
def playServerPacket : List UInt8 := Command.playServer.byte :: packBE16 0

/-! ## The initial packets -/

/-- `sizeof(struct uo_packet_extended)`. -/
def sizeofExtended : ℕ := 5

/-- `"REMOTE_IP="`. -/
def remoteIpKey : List UInt8 := [0x52, 0x45, 0x4d, 0x4f, 0x54, 0x45, 0x5f, 0x49, 0x50, 0x3d]

/-- The `Extended` packet that carries the client's address. -/
def remoteIpPacket (host : List UInt8) : List UInt8 :=
  Command.extended.byte :: packBE16 (sizeofExtended + (remoteIpKey ++ host).length) ++
    packBE16 0x5a6a ++ (remoteIpKey ++ host)

/-- The packet between seed and login, if any; `host` is `HostToString` of the client's address. -/
def remoteIp (config : Config) (host : List UInt8) : List UInt8 :=
  if config.sendRemoteIp && !host.isEmpty then remoteIpPacket host else []

/-- The bytes of the vector that `SendInitialPackets` writes. -/
def initialPacketsVector (config : Config) (host packets : List UInt8) : List UInt8 :=
  packets.take sizeofSeed ++ remoteIp config host ++ packets.drop sizeofSeed

theorem length_remoteIpPacket (host : List UInt8) :
    (remoteIpPacket host).length = 15 + host.length := by
  unfold remoteIpPacket
  simp only [List.length_append, List.length_cons, length_packBE16, remoteIpKey, List.length_nil]
  omega

end UoLogin
