import UoLogin.Knock

set_option autoImplicit false

/-!
# The firewall

An accepted knock may add its address to a set of nftables. `nft` runs in a process of its own, and the
handler waits for its end.

* `NftCall.argv`: the command; `nftAddElement`: `NftAddElement`, with what the kernel answers;
* **`nftAddElement_eq_ok`**: it returns normally exactly if `nft` was executed and has exited with success;
* `Request.handle`: `OnCheckCredentials` with this call in it; **`handle_eq`**: however `nft` ends, the
  knock stands.
-/

namespace UoLogin

/-- The arguments of `NftAddElement`. -/
structure NftCall where
  family : String
  table : String
  set : List UInt8
  address : List UInt8
  deriving DecidableEq

def NftCall.argv (call : NftCall) : List (List UInt8) :=
  (["nft", "add", "element", call.family, call.table].map fun word => word.toUTF8.toList) ++
    [call.set, "\x7b".toUTF8.toList, call.address, "\x7d".toUTF8.toList]

/-- What `waitpid()` can report of the child. -/
inductive WaitStatus where
  | exited (status : ℕ)
  | signaled (signal : ℕ)
  | stopped
  deriving DecidableEq, Repr

/-- `posix_spawn()` succeeds or fails, and so does each call of `waitpid()`; the calls that are not in the
list have not returned yet. -/
structure NftAnswers where
  spawn : Bool
  waits : List (Option WaitStatus)

/-- The exceptions of `NftAddElement`. -/
inductive NftError where
  | execute
  | waitpid
  | signaled (signal : ℕ)
  | exited (status : ℕ)
  deriving DecidableEq, Repr

/-- The loop over `waitpid()`, up to `WIFEXITED`. -/
def waitForExit : List (Option WaitStatus) → Option (Except NftError ℕ)
  | [] => none
  | none :: _ => some (.error .waitpid)
  | some (.signaled signal) :: _ => some (.error (.signaled signal))
  | some (.exited status) :: _ => some (.ok status)
  | some .stopped :: waits => waitForExit waits

/-- `NftAddElement`: the programs that were executed, and how it ends, unless `nft` goes on for ever. -/
def nftAddElement (call : NftCall) (ans : NftAnswers) :
    List (List (List UInt8)) × Option (Except NftError Unit) :=
  if ans.spawn = false then ([], some (.error .execute))
  else
    ([call.argv], (waitForExit ans.waits).map fun res =>
      res.bind fun status => if status ≠ 0 then .error (.exited status) else .ok ())

theorem waitForExit_eq_ok {waits : List (Option WaitStatus)} {status : ℕ} :
    waitForExit waits = some (.ok status) ↔
      ∃ n rest, waits = List.replicate n (some .stopped) ++ some (.exited status) :: rest := by
  induction waits using waitForExit.induct with
  | case1 => simp [waitForExit]
  | case2 waits =>
      refine iff_of_false (by simp [waitForExit]) ?_
      rintro ⟨_ | n, rest, h⟩ <;> cases h
  | case3 signal waits =>
      refine iff_of_false (by simp [waitForExit]) ?_
      rintro ⟨_ | n, rest, h⟩ <;> cases h
  | case4 status' waits =>
      rw [waitForExit, Option.some.injEq, Except.ok.injEq]
      constructor
      · rintro rfl
        exact ⟨0, waits, rfl⟩
      · rintro ⟨_ | n, rest, h⟩ <;> cases h
        rfl
  | case5 waits ih =>
      rw [waitForExit, ih]
      constructor
      · rintro ⟨n, rest, rfl⟩
        exact ⟨n + 1, rest, rfl⟩
      · rintro ⟨_ | n, rest, h⟩
        · cases h
        · exact ⟨n, rest, (List.cons.inj h).2⟩

/-- **When an element was added.** -/
theorem nftAddElement_eq_ok (call : NftCall) (ans : NftAnswers) :
    nftAddElement call ans = ([call.argv], some (.ok ())) ↔ ans.spawn = true ∧
      ∃ n rest, ans.waits = List.replicate n (some .stopped) ++ some (.exited 0) :: rest := by
  rw [← waitForExit_eq_ok, nftAddElement]
  cases ans.spawn with
  | false => simp
  | true =>
      simp only [Bool.true_eq_false, if_false, true_and, Prod.mk.injEq, Option.map_eq_some_iff]
      constructor
      · rintro ⟨error | status, hw, he⟩
        · cases he
        · by_cases hstatus : status = 0
          · exact hstatus ▸ hw
          · cases (if_pos hstatus).symm.trans he
      · exact fun hw => ⟨.ok 0, hw, rfl⟩

/-- `nft` ends in some way. -/
def NftAnswers.Ends (ans : NftAnswers) : Prop := ans.spawn = false ∨ ∃ w ∈ ans.waits, w ≠ some .stopped

theorem waitForExit_isSome {waits : List (Option WaitStatus)} (h : ∃ w ∈ waits, w ≠ some .stopped) :
    (waitForExit waits).isSome = true := by
  induction waits using waitForExit.induct with
  | case1 => simp at h
  | case2 | case3 | case4 => rfl
  | case5 waits ih =>
      obtain ⟨w, hw, hne⟩ := h
      exact ih ⟨w, (List.mem_cons.mp hw).resolve_left hne, hne⟩

theorem NftAnswers.Ends.isSome {ans : NftAnswers} (h : ans.Ends) (call : NftCall) :
    (nftAddElement call ans).2.isSome = true := by
  unfold nftAddElement
  cases hspawn : ans.spawn with
  | false => rfl
  | true =>
      have hw := h.resolve_left (by simp [hspawn])
      simpa using waitForExit_isSome hw

/-- `Request::OnCheckCredentials`, with the call of `NftAddElement` that it makes. -/
def Request.handle (req : Request) (accounted result : Bool) (ans : NftAnswers) : Option (List KnockAct) :=
  if accounted = false then some []
  else if result = false then some [.updateTokenBucket 5, .rejectedKnocks, .delete]
  else
    match req.nftSet with
    | none => some [.acceptedKnocks, .setKnocked, .delete]
    | some set =>
      if req.host.isEmpty then some [.acceptedKnocks, .setKnocked, .delete]
      else
        -- both ends of the `try` block
        (nftAddElement ⟨"inet", "filter", set, req.host⟩ ans).2.map fun _ =>
          [.acceptedKnocks, .setKnocked, .nftAddElement set req.host, .delete]

/-- **However `nft` ends, the knock stands.** -/
theorem Request.handle_eq (req : Request) (accounted result : Bool) {ans : NftAnswers} (h : ans.Ends) :
    req.handle accounted result ans = some (req.onCheckCredentials accounted result) := by
  unfold handle onCheckCredentials
  cases accounted <;> cases result <;> try rfl
  cases req.nftSet with
  | none => rfl
  | some set =>
      cases req.host.isEmpty with
      | true => rfl
      | false =>
          obtain ⟨res, hres⟩ := Option.isSome_iff_exists.mp (h.isSome ⟨"inet", "filter", set, req.host⟩)
          simp [hres]

end UoLogin
