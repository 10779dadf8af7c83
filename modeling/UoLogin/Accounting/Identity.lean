import UoLogin.Accounting.Limits

set_option autoImplicit false

/-!
# The identity of a client

Two addresses get the same record exactly if `ToInteger` gives the same number for them.

* `SameRecord`: `Get` returns the same record for two addresses;
* **`same_record_iff`**: hosts are told apart by their numbers, so that the ports do not matter, and two
  hosts of one network are told apart;
* `folded_hosts_share_a_record`: two hosts of different networks that are not, and one that has no record.
-/

namespace UoLogin.Accounts

variable {setup : AccountSetup} {inputs : List Input} {s s₁ : Accounts} {peer a b : SocketAddress}
  {x y : Host} {p : ℕ}

/-- `Get` returns the same record for both addresses. -/
def SameRecord (setup : AccountSetup) (s : Accounts) (a b : SocketAddress) : Prop :=
  ∃ p, (s.getClientAccounting setup a).1 = some p ∧
    ((s.getClientAccounting setup a).2.getClientAccounting setup b).1 = some p

/-- The host has a number other than 0. -/
theorem toInteger_of_host (ha : a.host = some x) :
    a.toInteger setup.address = x.identity setup.address := by
  rw [SocketAddress.toInteger_eq, ha]
  rfl

theorem Gets.exists_of_ne_zero {res : Option ℕ × Accounts} (h : Gets setup peer s res)
    (hzero : peer.toInteger setup.address ≠ 0) : ∃ p s₁, res = (some p, s₁) := by
  cases h with
  | unaccounted h0 => exact (hzero h0).elim
  | found => exact ⟨_, _, rfl⟩
  | inserted => exact ⟨_, _, rfl⟩

/-- A record that is in the map stays where it is. -/
theorem Gets.addressOf_mono (h : Gets setup peer s (some p, s₁)) {q : ℕ} {address : BitVec 64}
    (hq : addressOf s.accounting.records q = some address) :
    addressOf s₁.accounting.records q = some address := by
  cases h with
  | found => exact hq
  | inserted => exact addressOf_alloc.mpr (.inr hq)

/-- **Clients are told apart by the numbers of their hosts.** -/
theorem same_record_iff (h : Run setup inputs s) (ha : a.host = some x) (hb : b.host = some y)
    (hx : x.unspecified = false) (hx' : x.symmetric = false) (hy : y.unspecified = false)
    (hy' : y.symmetric = false) :
    (s.getClientAccounting setup a).1.isSome = true ∧ (s.getClientAccounting setup b).1.isSome = true ∧
      (SameRecord setup s a b ↔ x.identity setup.address = y.identity setup.address) ∧
      (x = y → SameRecord setup s a b) ∧
      (x.sameNet y = true → (SameRecord setup s a b ↔ x = y)) := by
  have hka : a.toInteger setup.address = x.identity setup.address := toInteger_of_host ha
  have hkb : b.toInteger setup.address = y.identity setup.address := toInteger_of_host hb
  have hza : a.toInteger setup.address ≠ 0 := by
    rw [hka, ne_eq, Host.identity_eq_zero, hx, hx']
    simp
  have hzb : b.toInteger setup.address ≠ 0 := by
    rw [hkb, ne_eq, Host.identity_eq_zero, hy, hy']
    simp
  have hget_a := getClientAccounting_gets setup a s
  obtain ⟨p, s₁, hres⟩ := hget_a.exists_of_ne_zero hza
  obtain ⟨p', s', hres'⟩ := (getClientAccounting_gets setup b s).exists_of_ne_zero hzb
  have hget_b := getClientAccounting_gets setup b s₁
  obtain ⟨q, s₂, hres₂⟩ := hget_b.exists_of_ne_zero hzb
  rw [hres] at hget_a
  rw [hres₂] at hget_b
  have hlinked : IsLinked setup s₂ :=
    Changes.keeps (fun _ _ hs hc => hc.linked hs) (hget_a.changes.1.trans hget_b.changes.1)
      (isLinked_run h)
  have hp := hget_b.addressOf_mono hget_a.addressOf_eq
  have hq := hget_b.addressOf_eq
  have hsame : SameRecord setup s a b ↔ x.identity setup.address = y.identity setup.address := by
    unfold SameRecord
    rw [hres, hres₂, ← hka, ← hkb]
    constructor
    · rintro ⟨p₀, hp₀, hq₀⟩
      cases hp₀
      cases hq₀
      exact Option.some.inj (hp.symm.trans hq)
    · intro hk
      rw [← hk] at hq
      exact ⟨p, rfl, congrArg some (hlinked.unique q p _ hq hp)⟩
  refine ⟨by rw [hres]; rfl, by rw [hres']; rfl, hsame, ?_, ?_⟩
  · rintro rfl
    exact hsame.mpr rfl
  · intro hnet
    exact hsame.trans (Host.identity_inj_of_sameNet setup.address hnet)

theorem same_record_of_sample :
    samplePeer.host = (SocketAddress.inet6 0xffff0a000001 12345).host ∧
      SameRecord sampleAccountSetup new samplePeer (.inet6 0xffff0a000001 12345) := by
  have hrun : Run sampleAccountSetup [] new := rfl
  have ha : samplePeer.host = some (.v4 0x0a000001) := rfl
  have hb : (SocketAddress.inet6 0xffff0a000001 12345).host = some (.v4 0x0a000001) := rfl
  exact ⟨ha.trans hb.symm, (same_record_iff hrun ha hb rfl rfl rfl rfl).2.2.2.1 rfl⟩

/-- **Two hosts share a record, and one has none**: `2001:db8:0:1::1` and `2001:db8::` have the same
number, and the number of `2001:db8::2001:db8:0:0` is 0. -/
theorem folded_hosts_share_a_record :
    let a := SocketAddress.inet6 0x20010db8000000010000000000000001 40000
    let b := SocketAddress.inet6 0x20010db8000000000000000000000000 40000
    let c := SocketAddress.inet6 0x20010db80000000020010db800000000 40000
    Run sampleAccountSetup [] new ∧ a.host ≠ b.host ∧ SameRecord sampleAccountSetup new a b ∧
      c.host.map Host.unspecified = some false ∧
      (new.getClientAccounting sampleAccountSetup c).1 = none :=
  ⟨rfl, by decide, ⟨0, by decide⟩, by decide, by decide⟩

end UoLogin.Accounts
