import Mathlib.Data.List.TakeWhile
import UoLogin.Lib.Decoder
import UoLogin.Packets

set_option autoImplicit false

/-!
# The server list

What `SendServerList` writes, seen by a client: a decoder that knows the layout of the packet and
nothing of the daemon takes it apart again.

* `decodeServerList`, **`reads_serverListPacket`**: the decoder and what it reads;
* **`serverListPacket_fields_iff`**: the length and the count fit their 16 bits for up to 1638
  servers.
-/

namespace UoLogin

open Codec Codec.Decoder

/-! ## A decoder -/

/-- A 16-bit number, high byte first. -/
def decodeBE16 : Decoder UInt8 ℕ := do
  let bytes ← take 2
  pure (unpackBE16 bytes)

/-- A server as the client sees it. -/
structure ListedServer where
  index : ℕ
  name : List UInt8
  deriving DecidableEq, Repr

/-- A fragment of 40 bytes; the client reads its index and its name. -/
def decodeServerInfo : Decoder UInt8 ListedServer := do
  let index ← decodeBE16
  let name ← take 32
  let _ ← take 6
  pure ⟨index, name⟩

/-- A `ServerList` packet: the length that it announces and its servers. -/
def decodeServerList : Decoder UInt8 (ℕ × List ListedServer) := do
  expect 0xa8
  let length ← decodeBE16
  expect 0x5d
  let count ← decodeBE16
  let servers ← many decodeServerInfo count
  pure (length, servers)

/-! ## What it reads -/

theorem reads_packBE16 {n : ℕ} (h : n < 65536) : Reads decodeBE16 (packBE16 n) n := by
  have hvalue : unpackBE16 (packBE16 n) = n := by
    have h' := unpackBE16_packBE16 n []
    rwa [List.append_nil, Nat.mod_eq_of_lt h] at h'
  have hmap := (reads_take (length_packBE16 n)).map unpackBE16
  rwa [hvalue] at hmap

/-- The name of a server as it is listed: 31 bytes of it and at least one NUL. -/
def listedName (name : List UInt8) : List UInt8 :=
  name.take (min 31 name.length) ++ List.replicate (32 - min 31 name.length) 0

theorem extractString_of_notMem {s : List UInt8} (h : 0 ∉ s) : extractString s = s := by
  refine List.takeWhile_eq_self_iff.mpr fun ch hch => ?_
  exact decide_eq_true fun he => h (he ▸ hch)

theorem nameField_of_notMem {name : List UInt8} (h : 0 ∉ name) : nameField name = listedName name := by
  unfold nameField listedName
  simp only [extractString_of_notMem h, List.length_take]
  rw [List.take_eq_take_min]

theorem length_nameField (name : List UInt8) : (nameField name).length = 32 := by
  unfold nameField
  simp only [List.length_append, List.length_take, List.length_replicate]
  omega

theorem length_serverInfo (i : ℕ) (src : GameServerConfig) : (serverInfo i src).length = 40 := by
  unfold serverInfo
  simp only [List.length_append, length_packBE16, length_nameField, packBE32, List.length_cons,
    List.length_nil]

theorem length_serverInfos (i : ℕ) (list : List GameServerConfig) :
    (serverInfos i list).length = 40 * list.length := by
  induction list generalizing i with
  | nil => rfl
  | cons src rest ih =>
      rw [serverInfos, List.length_append, length_serverInfo, ih, List.length_cons]
      omega

theorem serverListSize_eq {list : List GameServerConfig} (h : list ≠ []) :
    serverListSize list = 6 + 40 * list.length := by
  have hpos := List.length_pos_iff.mpr h
  unfold serverListSize sizeofServerList sizeofServerInfo
  omega

theorem length_serverListPacket {list : List GameServerConfig} :
    (serverListPacket list).length = 6 + 40 * list.length := by
  unfold serverListPacket
  simp only [List.length_append, List.length_cons, List.length_nil, length_packBE16,
    length_serverInfos]

theorem reads_serverInfo {i : ℕ} (hi : i < 65536) {src : GameServerConfig} (h : 0 ∉ src.name) :
    Reads decodeServerInfo (serverInfo i src) ⟨i, listedName src.name⟩ := by
  rw [serverInfo, nameField_of_notMem h, List.append_assoc, List.append_assoc]
  have hname : (listedName src.name).length = 32 := by
    rw [← nameField_of_notMem h]
    exact length_nameField src.name
  unfold decodeServerInfo
  refine (reads_packBE16 hi).bind ((reads_take hname).bind ?_)
  exact (reads_take (show ([0, 0] ++ packBE32 0xdeadbeef).length = 6 from rfl)).map _

/-- **The fragments**, one after the other. -/
theorem reads_serverInfos {i : ℕ} {list : List GameServerConfig} (hi : i + list.length ≤ 65536)
    (h : ∀ src ∈ list, 0 ∉ src.name) :
    Reads (many decodeServerInfo list.length) (serverInfos i list)
      ((list.zipIdx i).map fun p => ⟨p.2, listedName p.1.name⟩) := by
  induction list generalizing i with
  | nil => exact reads_many_zero _
  | cons src rest ih =>
      rw [List.length_cons] at hi
      exact reads_many_cons (reads_serverInfo (by omega) (h src List.mem_cons_self))
        (ih (by omega) fun src' hsrc => h src' (List.mem_cons_of_mem _ hsrc))

/-- **The decoder takes exactly the packet.** -/
theorem reads_serverListPacket {list : List GameServerConfig} (hne : list ≠ [])
    (h : ∀ src ∈ list, 0 ∉ src.name) (hle : list.length ≤ 1638) :
    Reads decodeServerList (serverListPacket list) (6 + 40 * list.length,
      list.mapIdx fun i src => ⟨i, listedName src.name⟩) := by
  have hsize : serverListSize list < 65536 := by
    rw [serverListSize_eq hne]
    omega
  rw [← serverListSize_eq hne, List.mapIdx_eq_zipIdx_map]
  have hpacket : serverListPacket list = [0xa8] ++ (packBE16 (serverListSize list) ++ ([0x5d] ++
      (packBE16 list.length ++ serverInfos 0 list))) := by
    simp [serverListPacket, Command.byte]
  rw [hpacket]
  unfold decodeServerList
  refine (reads_expect 0xa8).bind ((reads_packBE16 hsize).bind ((reads_expect 0x5d).bind ?_))
  refine (reads_packBE16 (show list.length < 65536 by omega)).bind ?_
  exact (reads_serverInfos (by omega) h).map _

/-- **The 16-bit fields** hold the size and the count of up to 1638 servers. -/
theorem serverListPacket_fields_iff {list : List GameServerConfig} (hne : list ≠ []) :
    (unpackBE16 ((serverListPacket list).drop 1) = (serverListPacket list).length ∧
      unpackBE16 ((serverListPacket list).drop 4) = list.length) ↔ list.length ≤ 1638 := by
  have hsize : unpackBE16 ((serverListPacket list).drop 1) = serverListSize list % 65536 := by
    rw [← unpackBE16_packBE16 (serverListSize list) ([0x5d] ++ (packBE16 list.length ++
      serverInfos 0 list))]
    simp [serverListPacket]
  have hcount : unpackBE16 ((serverListPacket list).drop 4) = list.length % 65536 := by
    rw [← unpackBE16_packBE16 list.length (serverInfos 0 list)]
    simp [serverListPacket, packBE16]
  rw [hsize, hcount, length_serverListPacket, serverListSize_eq hne]
  omega

end UoLogin
