import Mathlib.Data.List.Forall2
import Mathlib.Data.List.Induction
import UoLogin.Packets

set_option autoImplicit false

/-!
# The configuration file

`MyConfigParser` of `Config.cxx`. The lexer and the resolver are libcommon's (`Libcommon`), and so is
the type of the lines.

* `parseLine`, `finish`, `loadConfigFile`: the functions of the source;
* `Says`, `Setting.apply`, `parseLine_ok_iff`: a line is a setting, which changes the configuration;
* `last_foldl`, `serverList_foldl`: what a sequence of settings leaves in a member;
* **`config_file_iff`**: the file means what it says, exactly if its port numbers have 16 bits. The
  source assigns them to an `uint16_t`, and no check is made before.
-/

namespace UoLogin

/-! ## The source -/

inductive ConfigError where
  /-- of `FileLineParser` -/
  | lineParser
  | unknownOption
  /-- of `Resolve` and `ParseSocketAddress` -/
  | resolve
  | noGameServer
  deriving DecidableEq, Repr

/-- What `Config.cxx` uses of libcommon, for lines of any kind. A parser takes a word or a value off the
line; the answer of the resolver may depend on the line, as the names may change in the meantime. -/
structure Libcommon (L : Type) where
  /-- `CommentConfigParser` skips the line -/
  isComment : L → Bool
  expectWord : L → Except ConfigError (String × L)
  expectValue : L → Except ConfigError (List UInt8 × L)
  expectValueAndEnd : L → Except ConfigError (List UInt8)
  nextPositiveInteger : L → Except ConfigError (ℕ × L)
  nextBool : L → Except ConfigError (Bool × L)
  expectEnd : L → Except ConfigError Unit
  isEnd : L → Bool
  /-- `Resolve` of a value, with the default port, and `GetBest` -/
  resolve : L → List UInt8 → ℕ → Except ConfigError SocketAddress
  parseSocketAddress : L → List UInt8 → ℕ → Except ConfigError SocketAddress
  /-- `SocketConfig::Fixup`, which only replaces an IPv6 wildcard -/
  fixup : SocketAddress → SocketAddress
  resolve_ne_null : ∀ {line value port address}, resolve line value port = .ok address →
    address ≠ .null
  fixup_null : fixup .null = .null
  fixup_inet : ∀ address port, fixup (.inet address port) = .inet address port

/-- `struct Config`, with the members that only the start of the daemon reads; of a `SocketConfig` it is
the `bind_address`. -/
structure FileConfig extends Config where
  prometheusExporter : SocketAddress
  listener : SocketAddress
  knockListener : SocketAddress
  knockNftSet : List UInt8
  userDatabase : List UInt8
  autoReloadUserDatabase : Bool

/-- `IPv4Address{port}`: any address. -/
def ipv4Address (port : ℕ) : SocketAddress := .inet 0 port

/-- The conversion of a number to `uint16_t`. -/
def uint16 (n : ℕ) : ℕ := n % 65536

/-- `bind_address.SetLocal()` of the socket in this directory. -/
def prometheusSocket (runtimeDirectory : List UInt8) : SocketAddress :=
  .other 1 (runtimeDirectory ++ "/prometheus-exporter.socket".toUTF8.toList)

/-- The constructor; `$RUNTIME_DIRECTORY` may be set. -/
def FileConfig.new (runtimeDirectory : Option (List UInt8)) : FileConfig where
  gameServer := .null
  serverList := []
  sendRemoteIp := false
  prometheusExporter := runtimeDirectory.elim .null prometheusSocket
  listener := .null
  knockListener := .null
  knockNftSet := []
  userDatabase := []
  autoReloadUserDatabase := false

section Source

variable {L : Type} (lib : Libcommon L)

/-- `MyConfigParser::ParseLine`. The constructor of `GameServerConfig` takes a `SocketAddress`, so that
`std::move` moves nothing. -/
def parseLine (config : FileConfig) (line : L) : Except ConfigError FileConfig := do
  let (word, line) ← lib.expectWord line
  if word = "port" then
    let (port, line) ← lib.nextPositiveInteger line
    lib.expectEnd line
    return { config with listener := ipv4Address (uint16 port) }
  else if word = "knock_port" then
    let (port, line) ← lib.nextPositiveInteger line
    lib.expectEnd line
    return { config with knockListener := ipv4Address (uint16 port) }
  else if word = "knock_nft_set" then
    let value ← lib.expectValueAndEnd line
    return { config with knockNftSet := value }
  else if word = "user_database" then
    let value ← lib.expectValueAndEnd line
    return { config with userDatabase := value }
  else if word = "auto_reload_user_database" then
    let (value, line) ← lib.nextBool line
    lib.expectEnd line
    return { config with autoReloadUserDatabase := value }
  else if word = "game_server" then
    let (value, line) ← lib.expectValue line
    let address ← lib.resolve line value 2593
    if lib.isEnd line then return { config with gameServer := address }
    else
      let name ← lib.expectValueAndEnd line
      return { config with
        gameServer := address, serverList := config.serverList ++ [⟨name, address⟩] }
  else if word = "send_remote_ip" then
    let (value, line) ← lib.nextBool line
    lib.expectEnd line
    return { config with sendRemoteIp := value }
  else if word = "prometheus_exporter" then
    let value ← lib.expectValueAndEnd line
    let address ← lib.parseSocketAddress line value 5476
    return { config with prometheusExporter := address }
  else throw .unknownOption

/-- `MyConfigParser::Finish`. -/
def finish (config : FileConfig) : Except ConfigError FileConfig :=
  let listener := if config.listener = .null then ipv4Address 2593 else config.listener
  let config := { config with
    listener := lib.fixup listener, knockListener := lib.fixup config.knockListener }
  if config.gameServer = .null then .error .noGameServer else .ok config

/-- `LoadConfigFile` of a file with these lines. -/
def loadConfigFile (runtimeDirectory : Option (List UInt8)) (lines : List L) :
    Except ConfigError FileConfig := do
  let config ← (lines.filter fun line => !lib.isComment line).foldlM (parseLine lib)
    (.new runtimeDirectory)
  finish lib config

end Source

/-! ## What a line says -/

inductive Setting where
  | port (n : ℕ)
  | knockPort (n : ℕ)
  | knockNftSet (value : List UInt8)
  | userDatabase (value : List UInt8)
  | autoReloadUserDatabase (value : Bool)
  | gameServer (address : SocketAddress) (name : Option (List UInt8))
  | sendRemoteIp (value : Bool)
  | prometheusExporter (address : SocketAddress)

inductive Says {L : Type} (lib : Libcommon L) (line : L) : Setting → Prop
  | port {rest rest' : L} {n : ℕ} (hw : lib.expectWord line = .ok ("port", rest))
      (hn : lib.nextPositiveInteger rest = .ok (n, rest')) (he : lib.expectEnd rest' = .ok ()) :
      Says lib line (.port n)
  | knockPort {rest rest' : L} {n : ℕ} (hw : lib.expectWord line = .ok ("knock_port", rest))
      (hn : lib.nextPositiveInteger rest = .ok (n, rest')) (he : lib.expectEnd rest' = .ok ()) :
      Says lib line (.knockPort n)
  | knockNftSet {rest : L} {value : List UInt8}
      (hw : lib.expectWord line = .ok ("knock_nft_set", rest))
      (hv : lib.expectValueAndEnd rest = .ok value) : Says lib line (.knockNftSet value)
  | userDatabase {rest : L} {value : List UInt8}
      (hw : lib.expectWord line = .ok ("user_database", rest))
      (hv : lib.expectValueAndEnd rest = .ok value) : Says lib line (.userDatabase value)
  | autoReloadUserDatabase {rest rest' : L} {value : Bool}
      (hw : lib.expectWord line = .ok ("auto_reload_user_database", rest))
      (hv : lib.nextBool rest = .ok (value, rest')) (he : lib.expectEnd rest' = .ok ()) :
      Says lib line (.autoReloadUserDatabase value)
  | unnamed {rest rest' : L} {value : List UInt8} {address : SocketAddress}
      (hw : lib.expectWord line = .ok ("game_server", rest))
      (hv : lib.expectValue rest = .ok (value, rest'))
      (ha : lib.resolve rest' value 2593 = .ok address) (he : lib.isEnd rest' = true) :
      Says lib line (.gameServer address none)
  | named {rest rest' : L} {value name : List UInt8} {address : SocketAddress}
      (hw : lib.expectWord line = .ok ("game_server", rest))
      (hv : lib.expectValue rest = .ok (value, rest'))
      (ha : lib.resolve rest' value 2593 = .ok address) (he : lib.isEnd rest' = false)
      (hn : lib.expectValueAndEnd rest' = .ok name) : Says lib line (.gameServer address (some name))
  | sendRemoteIp {rest rest' : L} {value : Bool}
      (hw : lib.expectWord line = .ok ("send_remote_ip", rest))
      (hv : lib.nextBool rest = .ok (value, rest')) (he : lib.expectEnd rest' = .ok ()) :
      Says lib line (.sendRemoteIp value)
  | prometheusExporter {rest : L} {value : List UInt8} {address : SocketAddress}
      (hw : lib.expectWord line = .ok ("prometheus_exporter", rest))
      (hv : lib.expectValueAndEnd rest = .ok value)
      (ha : lib.parseSocketAddress rest value 5476 = .ok address) :
      Says lib line (.prometheusExporter address)

/-- The changed configuration. -/
def Setting.apply (config : FileConfig) : Setting → FileConfig
  | .port n => { config with listener := ipv4Address (uint16 n) }
  | .knockPort n => { config with knockListener := ipv4Address (uint16 n) }
  | .knockNftSet value => { config with knockNftSet := value }
  | .userDatabase value => { config with userDatabase := value }
  | .autoReloadUserDatabase value => { config with autoReloadUserDatabase := value }
  | .gameServer address name =>
    { config with
      gameServer := address
      serverList := config.serverList ++ (name.map fun name => ⟨name, address⟩).toList }
  | .sendRemoteIp value => { config with sendRemoteIp := value }
  | .prometheusExporter address => { config with prometheusExporter := address }

section Lines

variable {L : Type} {lib : Libcommon L} {line : L} {lines : List L} {config config' : FileConfig}

theorem Says.parseLine_eq {s : Setting} (h : Says lib line s) :
    parseLine lib config line = .ok (s.apply config) := by
  cases h <;> simp [parseLine, Setting.apply, bind, Except.bind, pure, Except.pure, *]

theorem bind_eq_ok {ε α β : Type} {x : Except ε α} {f : α → Except ε β} {b : β} :
    x >>= f = .ok b ↔ ∃ a, x = .ok a ∧ f a = .ok b := by
  cases x <;> simp [bind, Except.bind]

theorem says_of_parseLine (h : parseLine lib config line = .ok config') :
    ∃ s, Says lib line s ∧ s.apply config = config' := by
  unfold parseLine at h
  obtain ⟨⟨word, rest⟩, hw, h⟩ := bind_eq_ok.mp h
  simp only at h
  by_cases hport : word = "port"
  · rw [if_pos hport] at h
    obtain ⟨⟨n, rest'⟩, hn, h⟩ := bind_eq_ok.mp h
    obtain ⟨⟨⟩, he, h⟩ := bind_eq_ok.mp h
    exact ⟨_, .port (hport ▸ hw) hn he, Except.ok.inj h⟩
  rw [if_neg hport] at h
  by_cases hknock : word = "knock_port"
  · rw [if_pos hknock] at h
    obtain ⟨⟨n, rest'⟩, hn, h⟩ := bind_eq_ok.mp h
    obtain ⟨⟨⟩, he, h⟩ := bind_eq_ok.mp h
    exact ⟨_, .knockPort (hknock ▸ hw) hn he, Except.ok.inj h⟩
  rw [if_neg hknock] at h
  by_cases hset : word = "knock_nft_set"
  · rw [if_pos hset] at h
    obtain ⟨value, hv, h⟩ := bind_eq_ok.mp h
    exact ⟨_, .knockNftSet (hset ▸ hw) hv, Except.ok.inj h⟩
  rw [if_neg hset] at h
  by_cases hdatabase : word = "user_database"
  · rw [if_pos hdatabase] at h
    obtain ⟨value, hv, h⟩ := bind_eq_ok.mp h
    exact ⟨_, .userDatabase (hdatabase ▸ hw) hv, Except.ok.inj h⟩
  rw [if_neg hdatabase] at h
  by_cases hreload : word = "auto_reload_user_database"
  · rw [if_pos hreload] at h
    obtain ⟨⟨value, rest'⟩, hv, h⟩ := bind_eq_ok.mp h
    obtain ⟨⟨⟩, he, h⟩ := bind_eq_ok.mp h
    exact ⟨_, .autoReloadUserDatabase (hreload ▸ hw) hv he, Except.ok.inj h⟩
  rw [if_neg hreload] at h
  by_cases hserver : word = "game_server"
  · rw [if_pos hserver] at h
    obtain ⟨⟨value, rest'⟩, hv, h⟩ := bind_eq_ok.mp h
    obtain ⟨address, ha, h⟩ := bind_eq_ok.mp h
    split at h
    · rename_i he
      refine ⟨_, .unnamed (hserver ▸ hw) hv ha he, ?_⟩
      rw [← Except.ok.inj h]
      simp [Setting.apply]
    · rename_i he
      obtain ⟨name, hn, h⟩ := bind_eq_ok.mp h
      exact ⟨_, .named (hserver ▸ hw) hv ha ((Bool.not_eq_true _).mp he) hn, Except.ok.inj h⟩
  rw [if_neg hserver] at h
  by_cases hremote : word = "send_remote_ip"
  · rw [if_pos hremote] at h
    obtain ⟨⟨value, rest'⟩, hv, h⟩ := bind_eq_ok.mp h
    obtain ⟨⟨⟩, he, h⟩ := bind_eq_ok.mp h
    exact ⟨_, .sendRemoteIp (hremote ▸ hw) hv he, Except.ok.inj h⟩
  rw [if_neg hremote] at h
  by_cases hexporter : word = "prometheus_exporter"
  · rw [if_pos hexporter] at h
    obtain ⟨value, hv, h⟩ := bind_eq_ok.mp h
    obtain ⟨address, ha, h⟩ := bind_eq_ok.mp h
    exact ⟨_, .prometheusExporter (hexporter ▸ hw) hv ha, Except.ok.inj h⟩
  rw [if_neg hexporter] at h
  cases h

/-- **`ParseLine` does what the line says**, or throws. -/
theorem parseLine_ok_iff :
    parseLine lib config line = .ok config' ↔ ∃ s, Says lib line s ∧ s.apply config = config' := by
  refine ⟨says_of_parseLine, ?_⟩
  rintro ⟨s, hs, rfl⟩
  exact hs.parseLine_eq

/-- The parser goes on from line to line. -/
theorem foldlM_parseLine_ok_iff :
    lines.foldlM (parseLine lib) config = .ok config' ↔
      ∃ ss, List.Forall₂ (Says lib) lines ss ∧ ss.foldl Setting.apply config = config' := by
  induction lines generalizing config with
  | nil =>
      constructor
      · intro h
        exact ⟨[], .nil, Except.ok.inj h⟩
      · rintro ⟨ss, hss, h⟩
        cases hss
        exact congrArg Except.ok h
  | cons line lines ih =>
      rw [List.foldlM_cons, bind_eq_ok]
      constructor
      · rintro ⟨config₁, h₁, h⟩
        obtain ⟨s, hs, rfl⟩ := parseLine_ok_iff.mp h₁
        obtain ⟨ss, hss, h⟩ := ih.mp h
        exact ⟨s :: ss, .cons hs hss, h⟩
      · rintro ⟨ss, hss, h⟩
        cases hss with
        | @cons _ s _ ss hs hss => exact ⟨_, hs.parseLine_eq, ih.mpr ⟨ss, hss, h⟩⟩

/-- The beginning of `LoadConfigFile`, on lines that say these settings. -/
theorem loadConfigFile_eq {runtimeDirectory : Option (List UInt8)} {ss : List Setting}
    (h : List.Forall₂ (Says lib) (lines.filter fun line => !lib.isComment line) ss) :
    loadConfigFile lib runtimeDirectory lines =
      finish lib (ss.foldl Setting.apply (.new runtimeDirectory)) := by
  unfold loadConfigFile
  rw [foldlM_parseLine_ok_iff.mpr ⟨ss, h, rfl⟩]
  rfl

end Lines

/-! ## What the settings leave -/

/-- The last line of a kind. -/
def last {α : Type} (f : Setting → Option α) (ss : List Setting) : Option α :=
  (ss.filterMap f).getLast?

theorem last_concat {α : Type} (f : Setting → Option α) (ss : List Setting) (s : Setting) :
    last f (ss ++ [s]) = (f s).or (last f ss) := by
  unfold last
  rw [List.filterMap_append, List.getLast?_append]
  cases hs : f s <;> simp [hs]

/-- A member that lines of one kind assign has the value of the last of them. -/
theorem last_foldl {α β : Type} (g : FileConfig → β) (f : Setting → Option α) (k : α → β)
    (h : ∀ config s, g (Setting.apply config s) = ((f s).map k).getD (g config))
    (ss : List Setting) (config : FileConfig) :
    g (ss.foldl Setting.apply config) = ((last f ss).map k).getD (g config) := by
  induction ss using List.reverseRecOn with
  | nil => rfl
  | append_singleton ss s ih =>
      rw [List.foldl_concat, h, last_concat, ih]
      cases f s <;> rfl

theorem last_foldl_id {α : Type} (g : FileConfig → α) (f : Setting → Option α)
    (h : ∀ config s, g (Setting.apply config s) = (f s).getD (g config)) (ss : List Setting)
    (config : FileConfig) : g (ss.foldl Setting.apply config) = (last f ss).getD (g config) := by
  have hid := last_foldl g f id (fun config s => by rw [h, Option.map_id, id]) ss config
  rwa [Option.map_id] at hid

/-- The number of a `port` line, and so on. -/
def Setting.portNumber : Setting → Option ℕ
  | .port n => some n
  | _ => none

def Setting.knockPortNumber : Setting → Option ℕ
  | .knockPort n => some n
  | _ => none

def Setting.nftSet : Setting → Option (List UInt8)
  | .knockNftSet value => some value
  | _ => none

def Setting.database : Setting → Option (List UInt8)
  | .userDatabase value => some value
  | _ => none

def Setting.autoReload : Setting → Option Bool
  | .autoReloadUserDatabase value => some value
  | _ => none

def Setting.serverAddress : Setting → Option SocketAddress
  | .gameServer address _ => some address
  | _ => none

/-- A `game_server` line with a name. -/
def Setting.listed : Setting → Option GameServerConfig
  | .gameServer address name => name.map fun name => ⟨name, address⟩
  | _ => none

def Setting.remoteIp : Setting → Option Bool
  | .sendRemoteIp value => some value
  | _ => none

def Setting.exporter : Setting → Option SocketAddress
  | .prometheusExporter address => some address
  | _ => none

theorem serverList_foldl (ss : List Setting) (config : FileConfig) :
    (ss.foldl Setting.apply config).serverList = config.serverList ++ ss.filterMap Setting.listed := by
  induction ss using List.reverseRecOn with
  | nil => exact (List.append_nil _).symm
  | append_singleton ss s ih =>
      rw [List.foldl_concat, List.filterMap_append, ← List.append_assoc, ← ih]
      cases s with
      | gameServer address name => cases name <;> simp [Setting.apply, Setting.listed]
      | _ => exact (List.append_nil _).symm

/-- The numbers of the lines that set a port. -/
def portNumbers (ss : List Setting) : List ℕ :=
  ss.filterMap Setting.portNumber ++ ss.filterMap Setting.knockPortNumber

/-- What a configuration should say after these lines. -/
structure Means (runtimeDirectory : Option (List UInt8)) (ss : List Setting) (config : FileConfig) :
    Prop where
  port : config.listener = ipv4Address ((last Setting.portNumber ss).getD 2593)
  knockPort : config.knockListener = (last Setting.knockPortNumber ss).elim .null ipv4Address
  serverList : config.serverList = ss.filterMap Setting.listed
  gameServer : last Setting.serverAddress ss = some config.gameServer
  knockNftSet : config.knockNftSet = (last Setting.nftSet ss).getD []
  userDatabase : config.userDatabase = (last Setting.database ss).getD []
  autoReloadUserDatabase : config.autoReloadUserDatabase = (last Setting.autoReload ss).getD false
  sendRemoteIp : config.sendRemoteIp = (last Setting.remoteIp ss).getD false
  prometheusExporter : config.prometheusExporter =
    (last Setting.exporter ss).getD (runtimeDirectory.elim .null prometheusSocket)

/-- What loading a file with these lines should come to. -/
structure MeansWhatItSays (runtimeDirectory : Option (List UInt8)) (ss : List Setting)
    (res : Except ConfigError FileConfig) : Prop where
  means : ∀ config, res = .ok config → Means runtimeDirectory ss config
  /-- a number that is not a 16-bit port is refused -/
  refused : ∀ n ∈ portNumbers ss, 65536 ≤ n → ∃ e, res = .error e
  finish : (∀ n ∈ portNumbers ss, n < 65536) →
    (res = .error .noGameServer ↔ ss.filterMap Setting.serverAddress = [])

/-! ## The whole file -/

section File

variable {L : Type} {lib : Libcommon L} {lines : List L} {ss : List Setting}
  {runtimeDirectory : Option (List UInt8)} {config : FileConfig}

theorem Says.serverAddress_ne_null {line : L} {s : Setting} (h : Says lib line s)
    {address : SocketAddress} (ha : s.serverAddress = some address) : address ≠ .null := by
  cases h with
  | unnamed hw hv hr he | named hw hv hr he hn =>
      cases ha
      exact lib.resolve_ne_null hr
  | _ => cases ha

/-- Every setting comes from a line. -/
theorem exists_line (h : List.Forall₂ (Says lib) lines ss) {s : Setting} (hs : s ∈ ss) :
    ∃ line, Says lib line s := by
  induction h with
  | nil => cases hs
  | @cons line _ _ _ hline _ ih =>
      rcases List.mem_cons.mp hs with rfl | hs
      · exact ⟨line, hline⟩
      · exact ih hs

theorem gameServer_last (ss : List Setting) (config : FileConfig) :
    (ss.foldl Setting.apply config).gameServer =
      (last Setting.serverAddress ss).getD config.gameServer :=
  last_foldl_id (fun config => config.gameServer) _ (fun config s => by cases s <;> rfl) ss config

/-- A game server is set exactly if a line has set it. -/
theorem gameServer_foldl (runtimeDirectory : Option (List UInt8)) (h : List.Forall₂ (Says lib) lines ss) :
    (ss.foldl Setting.apply (.new runtimeDirectory)).gameServer = .null ↔
      ss.filterMap Setting.serverAddress = [] := by
  rw [gameServer_last]
  cases hlast : last Setting.serverAddress ss with
  | none => exact iff_of_true rfl (List.getLast?_eq_none_iff.mp hlast)
  | some address =>
      have hmem : address ∈ ss.filterMap Setting.serverAddress := List.mem_of_getLast? hlast
      obtain ⟨s, hs, ha⟩ := List.mem_filterMap.mp hmem
      obtain ⟨line, hline⟩ := exists_line h hs
      exact iff_of_false (hline.serverAddress_ne_null ha) (List.ne_nil_of_mem hmem)

/-- `Finish` refuses exactly a configuration without a game server. -/
theorem finish_error_iff (lib : Libcommon L) {e : ConfigError} :
    finish lib config = .error e ↔ e = .noGameServer ∧ config.gameServer = .null := by
  unfold finish
  simp only
  by_cases hg : config.gameServer = .null
  · rw [if_pos hg]
    exact ⟨fun h => ⟨(Except.error.inj h).symm, hg⟩, fun h => congrArg Except.error h.1.symm⟩
  · rw [if_neg hg]
    exact iff_of_false (fun h => by cases h) fun h => hg h.2

/-- The port of a listener, after `Finish`: the number of the last line, as an `uint16_t`. -/
theorem listener_finish (h : finish lib (ss.foldl Setting.apply (.new runtimeDirectory)) = .ok config) :
    config.listener = ipv4Address (((last Setting.portNumber ss).map uint16).getD 2593) := by
  have hfold : (ss.foldl Setting.apply (.new runtimeDirectory)).listener = _ :=
    last_foldl (fun config => config.listener) Setting.portNumber (fun n => ipv4Address (uint16 n))
      (fun config s => by cases s <;> rfl) ss (.new runtimeDirectory)
  unfold finish at h
  simp only at h
  split at h
  · cases h
  · rw [← Except.ok.inj h]
    change lib.fixup (if (ss.foldl Setting.apply (.new runtimeDirectory)).listener = .null then _
      else _) = _
    rw [hfold]
    cases last Setting.portNumber ss with
    | none => exact (congrArg lib.fixup (if_pos rfl)).trans (lib.fixup_inet ..)
    | some n => exact (congrArg lib.fixup (if_neg nofun)).trans (lib.fixup_inet ..)

theorem knockListener_finish
    (h : finish lib (ss.foldl Setting.apply (.new runtimeDirectory)) = .ok config) :
    config.knockListener =
      ((last Setting.knockPortNumber ss).map uint16).elim .null ipv4Address := by
  have hfold : (ss.foldl Setting.apply (.new runtimeDirectory)).knockListener = _ :=
    last_foldl (fun config => config.knockListener) Setting.knockPortNumber
      (fun n => ipv4Address (uint16 n)) (fun config s => by cases s <;> rfl) ss (.new runtimeDirectory)
  unfold finish at h
  simp only at h
  split at h
  · cases h
  · rw [← Except.ok.inj h]
    change lib.fixup (ss.foldl Setting.apply (.new runtimeDirectory)).knockListener = _
    rw [hfold]
    cases last Setting.knockPortNumber ss with
    | none => exact lib.fixup_null
    | some n => exact lib.fixup_inet ..

/-- `Finish` leaves the other members alone. -/
theorem finish_other {config' : FileConfig} (h : finish lib config = .ok config') :
    config' = { config with listener := config'.listener, knockListener := config'.knockListener } := by
  unfold finish at h
  simp only at h
  split at h
  · cases h
  · rw [← Except.ok.inj h]

theorem uint16_of_lt {n : ℕ} (h : n < 65536) : uint16 n = n := Nat.mod_eq_of_lt h

/-- Numbers that have 16 bits are kept. -/
theorem map_uint16_last {f : Setting → Option ℕ} (h : ∀ n ∈ ss.filterMap f, n < 65536) :
    (last f ss).map uint16 = last f ss := by
  cases hlast : last f ss with
  | none => rfl
  | some n => exact congrArg some (uint16_of_lt (h n (List.mem_of_getLast? hlast)))

theorem means_of_finish (hfits : ∀ n ∈ portNumbers ss, n < 65536)
    (hserver : ss.filterMap Setting.serverAddress ≠ [])
    (h : finish lib (ss.foldl Setting.apply (.new runtimeDirectory)) = .ok config) :
    Means runtimeDirectory ss config := by
  have hport := listener_finish h
  rw [map_uint16_last fun n hn => hfits n (List.mem_append_left _ hn)] at hport
  have hknock := knockListener_finish h
  rw [map_uint16_last fun n hn => hfits n (List.mem_append_right _ hn)] at hknock
  refine ⟨hport, hknock, ?_, ?_, ?_, ?_, ?_, ?_, ?_⟩ <;> rw [finish_other h]
  · exact serverList_foldl ss _
  · change _ = some (ss.foldl Setting.apply (.new runtimeDirectory)).gameServer
    rw [gameServer_last]
    cases hlast : last Setting.serverAddress ss with
    | none => exact (hserver (List.getLast?_eq_none_iff.mp hlast)).elim
    | some address => rfl
  · exact last_foldl_id (fun config => config.knockNftSet) _ (fun config s => by cases s <;> rfl)
      ss _
  · exact last_foldl_id (fun config => config.userDatabase) _ (fun config s => by cases s <;> rfl)
      ss _
  · exact last_foldl_id (fun config => config.autoReloadUserDatabase) _
      (fun config s => by cases s <;> rfl) ss _
  · exact last_foldl_id (fun config => config.sendRemoteIp) _ (fun config s => by cases s <;> rfl)
      ss _
  · exact last_foldl_id (fun config => config.prometheusExporter) _
      (fun config s => by cases s <;> rfl) ss _

/-- **The configuration file means what it says, exactly if its port numbers have 16 bits**, or if it is
refused because it names no game server. Every file that is accepted consists of lines that say
something. -/
theorem config_file_iff (lib : Libcommon L) (runtimeDirectory : Option (List UInt8)) (lines : List L) :
    (∀ config, loadConfigFile lib runtimeDirectory lines = .ok config →
      ∃ ss, List.Forall₂ (Says lib) (lines.filter fun line => !lib.isComment line) ss) ∧
    ∀ ss, List.Forall₂ (Says lib) (lines.filter fun line => !lib.isComment line) ss →
      (MeansWhatItSays runtimeDirectory ss (loadConfigFile lib runtimeDirectory lines) ↔
        ss.filterMap Setting.serverAddress = [] ∨ ∀ n ∈ portNumbers ss, n < 65536) := by
  refine ⟨fun config h => ?_, fun ss hss => ?_⟩
  · unfold loadConfigFile at h
    obtain ⟨config', h', -⟩ := bind_eq_ok.mp h
    obtain ⟨ss, hss, -⟩ := foldlM_parseLine_ok_iff.mp h'
    exact ⟨ss, hss⟩
  · rw [loadConfigFile_eq hss]
    have hgame := gameServer_foldl runtimeDirectory hss
    by_cases hserver : ss.filterMap Setting.serverAddress = []
    · have hrefused := (finish_error_iff lib).mpr ⟨rfl, hgame.mpr hserver⟩
      rw [hrefused]
      exact iff_of_true ⟨fun config h => (by cases h), fun _ _ _ => ⟨_, rfl⟩,
        fun _ => iff_of_true rfl hserver⟩ (.inl hserver)
    · obtain ⟨config, hconfig⟩ :
          ∃ config, finish lib (ss.foldl Setting.apply (.new runtimeDirectory)) = .ok config := by
        cases hres : finish lib (ss.foldl Setting.apply (.new runtimeDirectory)) with
        | ok config => exact ⟨config, rfl⟩
        | error e => exact (hserver (hgame.mp ((finish_error_iff lib).mp hres).2)).elim
      constructor
      · refine fun h => .inr fun n hn => Nat.lt_of_not_le fun hge => ?_
        obtain ⟨e, he⟩ := h.refused n hn hge
        exact nomatch hconfig.symm.trans he
      · intro h
        have hfits := h.resolve_left hserver
        refine ⟨fun config' h' => means_of_finish hfits hserver h', fun n hn hge => ?_, fun _ => ?_⟩
        · exact (Nat.not_le.mpr (hfits n hn) hge).elim
        · rw [hconfig]
          exact iff_of_false (fun he => by cases he) hserver

end File

/-! ## A file -/

/-- A line that is split into its words and values already. -/
inductive SampleToken where
  | word (s : String)
  | value (v : List UInt8)
  | number (n : ℕ)
  | flag (b : Bool)

/-- A parser of such lines, and a resolver that knows the address of every name. -/
def sampleLibcommon : Libcommon (List SampleToken) where
  isComment := List.isEmpty
  expectWord
    | .word s :: rest => .ok (s, rest)
    | _ => .error .lineParser
  expectValue
    | .value v :: rest => .ok (v, rest)
    | _ => .error .lineParser
  expectValueAndEnd
    | [.value v] => .ok v
    | _ => .error .lineParser
  nextPositiveInteger
    | .number (n + 1) :: rest => .ok (n + 1, rest)
    | _ => .error .lineParser
  nextBool
    | .flag b :: rest => .ok (b, rest)
    | _ => .error .lineParser
  expectEnd
    | [] => .ok ()
    | _ => .error .lineParser
  isEnd := List.isEmpty
  resolve := fun _ value port => .ok (.inet (BitVec.ofNat 32 value.length) port)
  parseSocketAddress := fun _ value port => .ok (.inet (BitVec.ofNat 32 value.length) port)
  fixup := id
  resolve_ne_null := fun h he => by cases h.trans (congrArg Except.ok he)
  fixup_null := rfl
  fixup_inet := fun _ _ => rfl

/-- A comment, a port, a server with a name and one without. -/
def sampleFile (port : ℕ) : List (List SampleToken) :=
  [[], [.word "port", .number (port + 1)],
    [.word "game_server", .value [0x61], .value [0x62]], [.word "game_server", .value [0x63, 0x64]]]

def sampleSettings (port : ℕ) : List Setting :=
  [.port (port + 1), .gameServer (.inet 1 2593) (some [0x62]), .gameServer (.inet 2 2593) none]

theorem says_sampleFile (port : ℕ) :
    List.Forall₂ (Says sampleLibcommon)
      ((sampleFile port).filter fun line => !sampleLibcommon.isComment line) (sampleSettings port) := by
  refine .cons (.port rfl rfl rfl) (.cons ?_ (.cons ?_ .nil))
  · exact .named rfl rfl rfl rfl rfl
  · exact .unnamed rfl rfl rfl rfl

/-- The port 2594, and a list with one server. -/
theorem config_file_of_sample :
    MeansWhatItSays none (sampleSettings 2593)
      (loadConfigFile sampleLibcommon none (sampleFile 2593)) :=
  ((config_file_iff sampleLibcommon none (sampleFile 2593)).2 _ (says_sampleFile 2593)).mpr
    (.inr (by decide))

/-- **The port 65537 is the port 1**, and nobody is told. -/
theorem port_is_truncated :
    ∃ config, loadConfigFile sampleLibcommon none (sampleFile 65536) = .ok config ∧
      config.listener = ipv4Address 1 ∧
      ¬ MeansWhatItSays none (sampleSettings 65536)
        (loadConfigFile sampleLibcommon none (sampleFile 65536)) := by
  obtain ⟨config, hload, hport⟩ :
      ∃ config, loadConfigFile sampleLibcommon none (sampleFile 65536) = .ok config ∧
        config.listener = ipv4Address 1 := by
    rw [loadConfigFile_eq (says_sampleFile 65536)]
    exact ⟨_, rfl, rfl⟩
  refine ⟨config, hload, hport, fun h => ?_⟩
  obtain ⟨e, he⟩ := h.refused 65537 (by decide) (by decide)
  exact nomatch hload.symm.trans he

end UoLogin
