import UoLogin.Database.Reload

set_option autoImplicit false

/-!
# Passwords

`CheckPassword` answers the question whether the database has a good hash for the name, other than for
a value that does not fit the buffer: this is an exception of `BerkeleyDB::Get`, and `CheckPassword`
is `noexcept`.

* `upperASCII`, `accepts`: the question, of the contents of a file;
* `checkPassword_long`, `checkPassword_none`, `checkPassword_fits`, `checkPassword_oversized`: what
  `CheckPassword` does with each stored value;
* **`checkPassword_total_iff`**: it answers the question exactly if the value has at most 128 bytes.
-/

namespace UoLogin

/-! ## The question -/

/-- The ASCII upper case of a string. -/
def upperASCII (s : List UInt8) : List UInt8 :=
  s.map fun ch => if 0x61 ≤ ch ∧ ch ≤ 0x7a then ch - 0x20 else ch

theorem length_upperASCII (s : List UInt8) : (upperASCII s).length = s.length := List.length_map _

theorem Verifier.key_eq (v : Verifier) (username : List UInt8) : v.key username = upperASCII username := by
  unfold Verifier.key upperASCII
  exact List.map_congr_left fun ch _ => v.util.toUpper_eq ch

/-- The value of a user, and the verdict on it: the name is short enough, the value is the length of a
hash, and the hash is one of the password. -/
def accepts (verify : List UInt8 → List UInt8 → Bool) (contents : Contents)
    (username password : List UInt8) : Bool :=
  match contents (upperASCII username) with
  | some value =>
    decide (username.length ≤ 30 ∧ 1 ≤ value.length ∧ value.length ≤ 127) && verify value password
  | none => false

theorem accepts_of_long {verify : List UInt8 → List UInt8 → Bool} {contents : Contents}
    {username password : List UInt8} (hl : 30 < username.length) :
    accepts verify contents username password = false := by
  unfold accepts
  cases contents (upperASCII username) with
  | none => rfl
  | some value =>
      have hlong : ¬ (username.length ≤ 30 ∧ 1 ≤ value.length ∧ value.length ≤ 127) := by omega
      simp only [hlong, decide_false, Bool.false_and]

/-! ## The answers -/

section CheckPassword

variable {v : Verifier} {id : ℕ} {h : Handle} {username password : List UInt8}

theorem checkPassword_long {fails : Bool} {db : Option Handle} (hl : 30 < username.length) :
    checkPassword v id db fails username password = (.ok false, []) := by
  unfold checkPassword
  exact if_pos hl

theorem checkPassword_none (hl : username.length ≤ 30) (hc : h.contents (upperASCII username) = none) :
    checkPassword v id (some h) false username password = (.ok false, [.get id (some h)]) := by
  have hget : h.get (v.key username) pwhashStrbytes false = .ok [] := by
    simp [Handle.get, v.key_eq, hc]
  simp [checkPassword, Nat.not_lt.mpr hl, hget]

/-- A value that fits the buffer is a hash unless it is empty or has no room for the NUL. -/
theorem checkPassword_fits (hl : username.length ≤ 30) {value : List UInt8}
    (hc : h.contents (upperASCII username) = some value) (hv : value.length ≤ 128) :
    (checkPassword v id (some h) false username password).1 =
      .ok (decide (1 ≤ value.length ∧ value.length ≤ 127) && v.verify value password) := by
  have hget : h.get (v.key username) pwhashStrbytes false = .ok value := by
    simp [Handle.get, v.key_eq, hc, pwhashStrbytes, hv]
  unfold checkPassword
  rw [if_neg (Nat.not_lt.mpr hl)]
  simp only [hget]
  by_cases hr : value.length = 0 ∨ value.length ≥ pwhashStrbytes
  · have hno : ¬ (1 ≤ value.length ∧ value.length ≤ 127) := by
      simp only [pwhashStrbytes] at hr
      omega
    simp only [if_pos hr, hno, decide_false, Bool.false_and]
  · have hyes : 1 ≤ value.length ∧ value.length ≤ 127 := by
      simp only [pwhashStrbytes] at hr
      omega
    simp only [if_neg hr, hyes, and_self, decide_true, Bool.true_and]

/-- A longer value is an exception that leaves a `noexcept` function. -/
theorem checkPassword_oversized (hl : username.length ≤ 30) {value : List UInt8}
    (hc : h.contents (upperASCII username) = some value) (hv : 128 < value.length) :
    checkPassword v id (some h) false username password = (.error .throws, [.get id (some h)]) := by
  have hget : h.get (v.key username) pwhashStrbytes false = .error .dbGet := by
    simp [Handle.get, v.key_eq, hc, pwhashStrbytes, Nat.not_le.mpr hv]
  simp [checkPassword, Nat.not_lt.mpr hl, hget]

end CheckPassword

/-- The case of the letters makes no difference. -/
theorem checkPassword_upperASCII (v : Verifier) (id : ℕ) (db : Option Handle) (fails : Bool)
    {username username' : List UInt8} (password : List UInt8)
    (hu : upperASCII username' = upperASCII username) :
    checkPassword v id db fails username' password = checkPassword v id db fails username password := by
  have hlength : username'.length = username.length := by
    rw [← length_upperASCII, hu, length_upperASCII]
  unfold checkPassword
  rw [v.key_eq, v.key_eq, hu, hlength]

/-- **`CheckPassword` is total exactly on values that fit its buffer.** And it never looks at the case
of the name. -/
theorem checkPassword_total_iff (v : Verifier) (id : ℕ) (h : Handle) (username password : List UInt8) :
    ((checkPassword v id (some h) false username password).1 =
        .ok (accepts v.verify h.contents username password) ↔
      30 < username.length ∨
        ∀ value, h.contents (upperASCII username) = some value → value.length ≤ 128) ∧
    ∀ username', upperASCII username' = upperASCII username →
      checkPassword v id (some h) false username' password =
        checkPassword v id (some h) false username password := by
  refine ⟨?_, fun username' hu => checkPassword_upperASCII v id _ _ password hu⟩
  by_cases hl : 30 < username.length
  · rw [checkPassword_long hl, accepts_of_long hl]
    exact iff_of_true rfl (.inl hl)
  have hle : username.length ≤ 30 := Nat.not_lt.mp hl
  cases hc : h.contents (upperASCII username) with
  | none =>
      rw [checkPassword_none hle hc]
      have haccepts : accepts v.verify h.contents username password = false := by
        simp only [accepts, hc]
      rw [haccepts]
      exact iff_of_true rfl (.inr nofun)
  | some value =>
      by_cases hv : value.length ≤ 128
      · rw [checkPassword_fits hle hc hv]
        have haccepts : accepts v.verify h.contents username password =
            (decide (1 ≤ value.length ∧ value.length ≤ 127) && v.verify value password) := by
          simp only [accepts, hc, hle, true_and]
        rw [haccepts]
        exact iff_of_true rfl (.inr fun value' h' => Option.some.inj h' ▸ hv)
      · rw [checkPassword_oversized hle hc (Nat.not_le.mp hv)]
        refine iff_of_false (fun hok => by cases hok) ?_
        rintro (hlong | hfits)
        · exact hl hlong
        · exact hv (hfits value rfl)

/-- A database with a value of 129 bytes for every key, and a verifier that refuses everything. -/
theorem checkPassword_of_oversized :
    (checkPassword ⟨.ascii, fun _ _ => false⟩ 0 (some ⟨0, fun _ => some (List.replicate 129 0x61)⟩) false
        [0x62] [0x63]).1 = .error .throws ∧
      accepts (fun _ _ => false) (fun _ => some (List.replicate 129 0x61)) [0x62] [0x63] = false := by
  decide +kernel

end UoLogin
