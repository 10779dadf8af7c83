import Mathlib.Tactic.IntervalCases
import UoLogin.Packets

set_option autoImplicit false

/-!
# Addresses as numbers

`ToInteger` folds the address of a client to the 64 bit number under which the client is accounted; 0
stands for a client that is not accounted. The port is ignored, and an IPv4-mapped IPv6 address is the
IPv4 address.

* `Host`: the IP address without the port, after un-mapping;
* **`toInteger_eq`**: `ToInteger` is a function of the host (`Host.identity`): the number of an IPv4
  address, and the two halves of an IPv6 address XORed;
* `identity_eq_zero`, `identity_inj_of_sameNet`: which hosts are not accounted, and which can be told
  apart.
-/

namespace UoLogin

/-- The numeric value of an IPv4 address as `GetNumericAddressBE` returns it, which depends on the byte
order of the machine. -/
structure AddressUtil where
  numericAddressBE : BitVec 32 → BitVec 32
  injective : Function.Injective numericAddressBE
  zero : numericAddressBE 0 = 0

/-- The bytes in reverse order. -/
def byteSwap32 (a : BitVec 32) : BitVec 32 :=
  a.extractLsb' 0 8 ++ a.extractLsb' 8 8 ++ a.extractLsb' 16 8 ++ a.extractLsb' 24 8

theorem byteSwap32_byteSwap32 (a : BitVec 32) : byteSwap32 (byteSwap32 a) = a := by
  apply BitVec.eq_of_getLsbD_eq
  intro i hi
  unfold byteSwap32
  simp only [BitVec.getLsbD_append, BitVec.getLsbD_extractLsb']
  interval_cases i <;> simp

/-- A little-endian machine, with `s_addr` in network byte order. -/
def AddressUtil.littleEndian : AddressUtil where
  numericAddressBE := byteSwap32
  injective := Function.LeftInverse.injective byteSwap32_byteSwap32
  zero := by decide

/-- The field `s6_addr`: the bytes of an IPv6 address in network order. -/
def s6Addr (address : BitVec 128) : List (BitVec 8) :=
  (List.range 16).map fun i => address.extractLsb' (120 - 8 * i) 8

/-- `Read64`. -/
def read64 (src : List (BitVec 8)) : BitVec 64 :=
  (List.range 8).foldl (fun value i => value <<< 8 ||| (src.getD i 0).setWidth 64) 0

/-- `ToInteger` of an `in6_addr`. -/
def in6ToInteger (address : BitVec 128) : BitVec 64 :=
  read64 (s6Addr address) ^^^ read64 ((s6Addr address).drop 8)

/-- `IPv6Address::IsV4Mapped`: the address is in `::ffff:0:0/96`. -/
def isV4Mapped (address : BitVec 128) : Bool := address.extractLsb' 32 96 == 0xffff

/-- The address that `IPv6Address::UnmapV4` returns. -/
def unmapV4 (address : BitVec 128) : BitVec 32 := address.extractLsb' 0 32

/-- `ToInteger`. -/
def SocketAddress.toInteger (util : AddressUtil) : SocketAddress → BitVec 64
  | .null => 0
  | .inet address _ => (util.numericAddressBE address).setWidth 64
  | .inet6 address _ =>
    if isV4Mapped address = true then (util.numericAddressBE (unmapV4 address)).setWidth 64
    else in6ToInteger address
  | .other _ _ => 0

/-! ## Reading the halves -/

/-- One more byte of the address. -/
theorem read64_step (address : BitVec 128) {start len : ℕ} (hlen : len + 8 ≤ 64) :
    (address.extractLsb' (start + 8) len).setWidth 64 <<< 8 |||
        (address.extractLsb' start 8).setWidth 64 =
      (address.extractLsb' start (len + 8)).setWidth 64 := by
  apply BitVec.eq_of_getLsbD_eq
  intro i hi
  simp only [BitVec.getLsbD_or, BitVec.getLsbD_shiftLeft, BitVec.getLsbD_setWidth,
    BitVec.getLsbD_extractLsb', hi, decide_true, Bool.true_and]
  by_cases h8 : i < 8
  · have : i < len + 8 := by omega
    simp [h8, this]
  · have hshift : start + 8 + (i - 8) = start + i := by omega
    have hlt : i - 8 < 64 := by omega
    by_cases hin : i - 8 < len
    · have : i < len + 8 := by omega
      simp [h8, hshift, hlt, hin, this]
    · have : ¬ i < len + 8 := by omega
      simp [h8, hlt, hin, this]

theorem read64_eq (address : BitVec 128) {src : List (BitVec 8)} {start : ℕ}
    (hsrc : ∀ i < 8, src.getD i 0 = address.extractLsb' (start + (56 - 8 * i)) 8) :
    read64 src = address.extractLsb' start 64 := by
  have hloop : ∀ n ≤ 8, (List.range n).foldl
      (fun (value : BitVec 64) i => value <<< 8 ||| (src.getD i 0).setWidth 64) 0 =
        (address.extractLsb' (start + (64 - 8 * n)) (8 * n)).setWidth 64 := by
    intro n
    induction n with
    | zero => simp
    | succ n ih =>
        intro hn
        rw [List.range_succ, List.foldl_append, ih (by omega)]
        simp only [List.foldl_cons, List.foldl_nil]
        rw [hsrc n (by omega)]
        have hstart : start + (64 - 8 * n) = start + (56 - 8 * n) + 8 := by omega
        have hnext : start + (64 - 8 * (n + 1)) = start + (56 - 8 * n) := by omega
        rw [hstart, hnext]
        exact read64_step address (by omega)
  unfold read64
  rw [hloop 8 (Nat.le_refl 8)]
  exact BitVec.setWidth_eq _

/-- `Read64(s6_addr)` and `Read64(s6_addr + 8)` are the two halves. -/
theorem in6ToInteger_eq (address : BitVec 128) :
    in6ToInteger address = address.extractLsb' 64 64 ^^^ address.extractLsb' 0 64 := by
  have hbyte : ∀ i < 16, (s6Addr address).getD i 0 = address.extractLsb' (120 - 8 * i) 8 := by
    intro i hi
    simp [s6Addr, List.getD, hi]
  unfold in6ToInteger
  congr 1
  · refine read64_eq address fun i hi => ?_
    rw [hbyte i (by omega)]
    congr 1
    omega
  · refine read64_eq address fun i hi => ?_
    have hdrop : ((s6Addr address).drop 8).getD i 0 = (s6Addr address).getD (8 + i) 0 := by
      simp [List.getD]
    rw [hdrop, hbyte (8 + i) (by omega)]
    congr 1
    omega

/-! ## Hosts -/

/-- An IP address without a port. -/
inductive Host where
  | v4 (address : BitVec 32)
  | v6 (address : BitVec 128) (unmapped : isV4Mapped address = false)
  deriving DecidableEq

/-- The host that an address denotes. -/
def SocketAddress.host : SocketAddress → Option Host
  | .inet address _ => some (.v4 address)
  | .inet6 address _ =>
    if h : isV4Mapped address = true then some (.v4 (unmapV4 address))
    else some (.v6 address ((Bool.not_eq_true _).mp h))
  | .null | .other _ _ => none

namespace Host

variable (util : AddressUtil)

/-- `0.0.0.0` and `::`. -/
def unspecified : Host → Bool
  | v4 address => address == 0
  | v6 address _ => address == 0

/-- An IPv6 address whose halves are equal. -/
def symmetric : Host → Bool
  | v4 _ => false
  | v6 address _ => address.extractLsb' 64 64 == address.extractLsb' 0 64

/-- The number that stands for a host. -/
def identity : Host → BitVec 64
  | v4 address => (util.numericAddressBE address).setWidth 64
  | v6 address _ => address.extractLsb' 64 64 ^^^ address.extractLsb' 0 64

theorem identity_v4_inj {a b : BitVec 32} : identity util (v4 a) = identity util (v4 b) ↔ a = b := by
  constructor
  · intro h
    have hval := congrArg BitVec.toNat h
    simp only [identity, BitVec.toNat_setWidth] at hval
    have ha := (util.numericAddressBE a).isLt
    have hb := (util.numericAddressBE b).isLt
    rw [Nat.mod_eq_of_lt (by omega), Nat.mod_eq_of_lt (by omega)] at hval
    exact util.injective (BitVec.eq_of_toNat_eq hval)
  · rintro rfl
    rfl

/-- Two IPv4 addresses, or two IPv6 addresses with the same upper half. -/
def sameNet : Host → Host → Bool
  | v4 _, v4 _ => true
  | v6 a _, v6 b _ => a.extractLsb' 64 64 == b.extractLsb' 64 64
  | _, _ => false

/-- Two hosts of one network have different numbers. -/
theorem identity_inj_of_sameNet {x y : Host} (h : sameNet x y = true) :
    identity util x = identity util y ↔ x = y := by
  constructor
  · intro hid
    cases x with
    | v4 a =>
        cases y with
        | v4 b => rw [(identity_v4_inj util).mp hid]
        | v6 b hb => cases h
    | v6 a ha =>
        cases y with
        | v4 b => cases h
        | v6 b hb =>
            have hhigh : a.extractLsb' 64 64 = b.extractLsb' 64 64 := beq_iff_eq.mp h
            simp only [identity, hhigh] at hid
            have hlow : a.extractLsb' 0 64 = b.extractLsb' 0 64 := (BitVec.xor_right_inj _).mp hid
            have hhalves : ∀ z : BitVec 128, z.extractLsb' 64 64 ++ z.extractLsb' 0 64 = z :=
              fun z => @BitVec.extractLsb'_append_extractLsb' 64 64 z
            have hab : a = b := by rw [← hhalves a, ← hhalves b, hhigh, hlow]
            subst hab
            rfl
  · rintro rfl
    rfl

/-- A host that is not accounted. -/
theorem identity_eq_zero {h : Host} :
    identity util h = 0 ↔ h.unspecified = true ∨ h.symmetric = true := by
  cases h with
  | v4 address =>
      have hzero : identity util (v4 0) = 0 := by
        simp only [identity, util.zero]
        rfl
      rw [← hzero, identity_v4_inj]
      simp [unspecified, symmetric]
  | v6 address ha =>
      simp only [identity, unspecified, symmetric, beq_iff_eq]
      refine BitVec.xor_eq_zero_iff.trans ⟨Or.inr, ?_⟩
      rintro (rfl | h)
      · rfl
      · exact h

end Host

/-- **`ToInteger` depends on the host only.** -/
theorem SocketAddress.toInteger_eq (util : AddressUtil) (a : SocketAddress) :
    a.toInteger util = (a.host.map (Host.identity util)).getD 0 := by
  cases a with
  | null | other | inet => rfl
  | inet6 address port =>
      by_cases h : isV4Mapped address = true
      · simp [toInteger, host, h, Host.identity]
      · simp [toInteger, host, h, Host.identity, in6ToInteger_eq]

end UoLogin
