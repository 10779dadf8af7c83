import Mathlib.Data.List.Induction
import UoLogin.Lib.History
import UoLogin.Database.Reload

set_option autoImplicit false

/-!
# The books of the automatic reload

`MaybeAutoReload` writes three members before, between and after calls that may throw. After any
sequence of calls they say what the latest attempt to load the file has seen, and how it ended.

* `Attempt`, `latestAttempt`: the attempts that a sequence of calls should make;
* `Records`: what the members say about the latest one;
* `Released`: which handles are closed, and when;
* `Behaves`: what one more call does;
* **`bookkeeping`**: all three, after any sequence of calls.
-/

namespace UoLogin

/-! ## Attempts -/

/-- An attempt to load the file: what `stat()` has found, and the contents or the exception. -/
structure Attempt where
  stat : Stat
  outcome : Except DatabaseError Contents

namespace ReloadAnswers

/-- How an attempt with these answers ends: the first thing that fails is the exception. -/
def outcome (ans : ReloadAnswers) : Except DatabaseError Contents :=
  if ans.runtimeDirectory = false then .error .noRuntimeDirectory
  else if ans.copyRegularFile = false then .error .copyRegularFile
  else if ans.dbCreate = false then .error .dbCreate
  else ans.dbOpen.elim (.error .dbOpen) .ok

/-- What such an attempt does with the copy and with the handle that comes next. -/
def acts (ans : ReloadAnswers) (size : ℤ) (next : ℕ) : List DatabaseAct :=
  if ans.runtimeDirectory = false then []
  else if ans.copyRegularFile = false ∨ ans.dbCreate = false then [.copyRegularFile size]
  else
    [.copyRegularFile size,
      ans.dbOpen.elim (.close next) fun contents => .opened ⟨next, contents⟩]

end ReloadAnswers

/-- The modification time that a call compares with. -/
def Attempt.mtime : Option Attempt → ℤ
  | some a => a.stat.mtime
  | none => 0

/-- The attempt that a call should make after this one: when it finds a regular file with another
modification time. -/
def Attempt.next (latest : Option Attempt) (ans : ReloadAnswers) : Option Attempt :=
  match ans.stat with
  | some st =>
    if st.regular = true ∧ st.mtime ≠ mtime latest then some ⟨st, ans.outcome⟩ else latest
  | none => latest

/-- The latest attempt of a sequence of calls. -/
def latestAttempt (calls : List ReloadAnswers) : Option Attempt := calls.foldl Attempt.next none

theorem latestAttempt_concat (calls : List ReloadAnswers) (ans : ReloadAnswers) :
    latestAttempt (calls ++ [ans]) = Attempt.next (latestAttempt calls) ans :=
  List.foldl_concat ..

namespace Database

/-- The database of a daemon that reloads it, after these calls of `MaybeAutoReload`. -/
def reloadAll (path : Option (List UInt8)) (calls : List ReloadAnswers) : Database :=
  calls.foldl (fun d ans => (d.maybeAutoReload ans).2) { path := path, autoReload := true }

theorem reloadAll_concat (path : Option (List UInt8)) (calls : List ReloadAnswers)
    (ans : ReloadAnswers) :
    reloadAll path (calls ++ [ans]) = ((reloadAll path calls).maybeAutoReload ans).2 :=
  List.foldl_concat ..

variable {d d' : Database} {ans : ReloadAnswers} {res : Except DatabaseError Unit}
  {latest : Option Attempt}

theorem Fails.outcome_eq {size : ℤ} {n n' : ℕ} {e : DatabaseError} {acts : List DatabaseAct}
    (h : Fails ans size n e acts n') : ans.outcome = .error e := by
  cases h <;> simp [ReloadAnswers.outcome, *]

theorem Fails.acts_eq {size : ℤ} {n n' : ℕ} {e : DatabaseError} {acts : List DatabaseAct}
    (h : Fails ans size n e acts n') : ans.acts size n = acts := by
  cases h <;> simp [ReloadAnswers.acts, *]

/-! ## The members -/

/-- The database is open, with the copy that the latest attempt made, or it is closed and remembers why
that attempt has failed. -/
def Outcome (d : Database) (a : Attempt) : Prop :=
  match a.outcome with
  | .ok contents =>
    (∃ n, d.db = some ⟨n, contents⟩ ∧
      ∃ log, d.log = log ++ [.copyRegularFile a.stat.size, .opened ⟨n, contents⟩]) ∧
    d.lastReloadError = none
  | .error e => d.db = none ∧ d.lastReloadError = some e

/-- The members say what the latest attempt has seen, and how it ended. -/
structure Records (latest : Option Attempt) (d : Database) : Prop where
  lastMtime : d.lastMtime = Attempt.mtime latest
  never : latest = none → d.db = none ∧ d.lastReloadError = none
  outcome : ∀ a, latest = some a → Outcome d a

theorem Records.next_eq (h : Records latest d) {st : Stat} (hs : ans.stat = some st)
    (hr : st.regular = true) (hm : st.mtime ≠ d.lastMtime) :
    Attempt.next latest ans = some ⟨st, ans.outcome⟩ := by
  have hnew : st.regular = true ∧ st.mtime ≠ Attempt.mtime latest := ⟨hr, h.lastMtime ▸ hm⟩
  simp only [Attempt.next, hs, if_pos hnew]

/-- A call that should make no attempt. -/
theorem Records.next_same (h : Records latest d)
    (hs : ∀ st, ans.stat = some st → st.regular = true → st.mtime = d.lastMtime) :
    Attempt.next latest ans = latest := by
  unfold Attempt.next
  split
  · rename_i st hst
    refine if_neg fun hnew => hnew.2 ?_
    rw [← h.lastMtime]
    exact hs st hst hnew.1
  · rfl

theorem Reloads.records (hr : Reloads d ans (res, d')) (h : Records latest d) :
    Records (Attempt.next latest ans) d' := by
  cases hr with
  | stat hs =>
      rw [h.next_same fun st hst => by simp [hs] at hst]
      exact h
  | notRegularFile hs hreg =>
      rw [h.next_same fun st hst hst' => by simp_all]
      exact h
  | rethrows hs hreg hm he =>
      rw [h.next_same fun st hst _ => by simp_all]
      exact h
  | unchanged hs hreg hm he =>
      rw [h.next_same fun st hst _ => by simp_all]
      exact h
  | failed hs hreg hm hf =>
      rw [h.next_eq hs hreg hm]
      refine ⟨rfl, nofun, fun a ha => ?_⟩
      cases ha
      simp only [Outcome, hf.outcome_eq]
      exact ⟨rfl, rfl⟩
  | @loaded st hs hreg hm hd hc hn contents ho =>
      rw [h.next_eq hs hreg hm]
      refine ⟨rfl, nofun, fun a ha => ?_⟩
      cases ha
      have houtcome : ans.outcome = .ok contents := by simp [ReloadAnswers.outcome, hd, hc, hn, ho]
      simp only [Outcome, houtcome]
      exact ⟨⟨_, rfl, _, rfl⟩, rfl⟩

/-! ## The handles -/

/-- When the copy is overwritten, every handle that was ever opened is closed. -/
def Overwrites (pre : List DatabaseAct) (a : DatabaseAct) : Prop :=
  ∀ size, a = .copyRegularFile size → ∀ h, .opened h ∈ pre → h.id ∈ closes pre

/-- The handles that were created, other than the one that is open, are closed, each of them once; and
they were closed when the copy was overwritten. -/
structure Released (d : Database) : Prop extends Handles d where
  released : ∀ n, n < d.handles → (∀ h, d.db = some h → h.id ≠ n) → n ∈ closes d.log
  opened : ∀ h, .opened h ∈ d.log → h.id < d.handles
  overwritten : History.Every Overwrites d.log

theorem opened_closing {db : Option Handle} {h : Handle} : ¬ .opened h ∈ Database.closing db := by
  cases db <;> simp [Database.closing]

/-- With the current handle, all of them are closed. -/
theorem Released.closing (h : Released d) {n : ℕ} (hn : n < d.handles) :
    n ∈ closes (d.log ++ Database.closing d.db) := by
  rw [closes_append]
  cases hd : d.db with
  | none => exact List.mem_append_left _ (h.released n hn (by simp [hd]))
  | some old =>
      by_cases hold : old.id = n
      · exact List.mem_append_right _ (by simp [closes, Database.closing, hold])
      · exact List.mem_append_left _ (h.released n hn (by simp [hd, hold]))

theorem Released.every_closing (h : Released d) :
    History.Every Overwrites (d.log ++ Database.closing d.db) := by
  refine History.every_append.mpr ⟨h.overwritten, History.every_of_forall fun a ha pre size hc => ?_⟩
  rw [hc] at ha
  cases hd : d.db <;> simp [hd, Database.closing] at ha

/-- So the copy may be overwritten. -/
theorem Released.overwrites (h : Released d) (size : ℤ) {rest : List DatabaseAct}
    (hrest : ∀ size, .copyRegularFile size ∉ rest) :
    History.Every Overwrites (d.log ++ Database.closing d.db ++ .copyRegularFile size :: rest) := by
  refine History.every_append.mpr ⟨h.every_closing, History.every_cons.mpr ⟨?_, ?_⟩⟩
  · intro _ _ h' hopened
    rw [List.append_nil] at hopened ⊢
    rcases List.mem_append.mp hopened with hlog | hclosing
    · exact h.closing (h.opened h' hlog)
    · exact (opened_closing hclosing).elim
  · refine History.every_of_forall fun a ha pre size' hc => ?_
    rw [hc] at ha
    exact (hrest size' ha).elim

theorem Reloads.released (hr : Reloads d ans (res, d')) (h : Released d) : Released d' := by
  have hhandles : Handles d' := hr.handles h.toHandles
  -- an entry of the old log, or of the closing of the old handle
  have hopened : ∀ {h' acts}, .opened h' ∈ d.log ++ Database.closing d.db ++ acts →
      h'.id < d.handles ∨ .opened h' ∈ acts := by
    intro h' acts hmem
    simp only [List.mem_append, opened_closing, or_false] at hmem
    exact hmem.imp_left (h.opened h')
  have hclosed : ∀ {n acts}, n < d.handles → n ∈ closes (d.log ++ Database.closing d.db ++ acts) := by
    intro n acts hn
    rw [closes_append]
    exact List.mem_append_left _ (h.closing hn)
  cases hr with
  | stat | notRegularFile | rethrows | unchanged => exact h
  | @failed st hs hreg hm e acts n hf =>
      cases hf with
      | noRuntimeDirectory =>
          refine ⟨hhandles, fun n hn _ => hclosed hn, fun h' hmem => ?_, ?_⟩
          · exact (hopened hmem).elim id (by simp)
          · simp only [lost, List.append_nil]
            exact h.every_closing
      | copyRegularFile | dbCreate =>
          refine ⟨hhandles, fun n hn _ => hclosed hn, fun h' hmem => ?_, h.overwrites _ (by simp)⟩
          exact (hopened hmem).elim id (by simp)
      | dbOpen =>
          refine ⟨hhandles, fun n hn _ => ?_, fun h' hmem => ?_, h.overwrites _ (by simp)⟩
          · rcases Nat.lt_succ_iff_lt_or_eq.mp hn with hlt | rfl
            · exact hclosed hlt
            · exact mem_closes.mpr (by simp [lost])
          · exact Nat.lt_succ_of_lt ((hopened hmem).elim id (by simp))
  | @loaded st hs hreg hm hd hc hn contents ho =>
      refine ⟨hhandles, fun n hn hne => ?_, fun h' hmem => ?_, h.overwrites _ (by simp)⟩
      · rcases Nat.lt_succ_iff_lt_or_eq.mp hn with hlt | rfl
        · exact hclosed hlt
        · exact (hne _ rfl rfl).elim
      · rcases hopened hmem with hlt | hnew
        · exact Nat.lt_succ_of_lt hlt
        · simp only [List.mem_cons, List.not_mem_nil, or_false, reduceCtorEq, false_or] at hnew
          cases hnew
          exact Nat.lt_succ_self _

/-! ## One more call -/

/-- What a call does after this latest attempt. -/
structure Behaves (latest : Option Attempt) (d : Database) (ans : ReloadAnswers) : Prop where
  stat : ans.stat = none → d.maybeAutoReload ans = (.error .stat, d)
  notRegularFile : ∀ st, ans.stat = some st → st.regular = false →
    d.maybeAutoReload ans = (.error .notRegularFile, d)
  /-- no second attempt: the exception of the latest one is thrown again, if there was one -/
  unchanged : ∀ st, ans.stat = some st → st.regular = true → st.mtime = d.lastMtime →
    (d.maybeAutoReload ans).2 = d ∧
    ∀ e, (d.maybeAutoReload ans).1 = .error e ↔ ∃ a, latest = some a ∧ a.outcome = .error e
  /-- an attempt: the old handle is closed, then the file is copied and opened -/
  changed : ∀ st, ans.stat = some st → st.regular = true → st.mtime ≠ d.lastMtime →
    (d.maybeAutoReload ans).1 = ans.outcome.map (fun _ => ()) ∧
    (d.maybeAutoReload ans).2.lastMtime = st.mtime ∧
    (d.maybeAutoReload ans).2.log = d.log ++ closing d.db ++ ans.acts st.size d.handles

/-- The remembered exception is that of the latest attempt. -/
theorem Records.lastReloadError_eq (h : Records latest d) {e : DatabaseError} :
    d.lastReloadError = some e ↔ ∃ a, latest = some a ∧ a.outcome = .error e := by
  cases hl : latest with
  | none => simp [(h.never hl).2]
  | some a =>
      have ha := h.outcome a hl
      unfold Outcome at ha
      cases ho : a.outcome with
      | ok contents =>
          rw [ho] at ha
          simp [ha.2, ho]
      | error e' =>
          rw [ho] at ha
          simp [ha.2, ho]

theorem Records.behaves (h : Records latest d) (ans : ReloadAnswers) : Behaves latest d ans := by
  have hr := maybeAutoReload_reloads d ans
  generalize hcall : d.maybeAutoReload ans = call at hr
  obtain ⟨res, d'⟩ := call
  cases hr with
  | stat hs => constructor <;> simp_all
  | notRegularFile hs hreg => constructor <;> simp_all
  | rethrows hs hreg hm he =>
      refine ⟨by simp [hs], by simp [hs, hreg], fun st _ _ _ => ?_, by simp [hs, hm]⟩
      rw [hcall]
      refine ⟨rfl, fun e' => ?_⟩
      rw [← h.lastReloadError_eq, he]
      simp
  | unchanged hs hreg hm he =>
      refine ⟨by simp [hs], by simp [hs, hreg], fun st _ _ _ => ?_, by simp [hs, hm]⟩
      rw [hcall]
      refine ⟨rfl, fun e' => ?_⟩
      rw [← h.lastReloadError_eq, he]
      simp
  | failed hs hreg hm hf =>
      refine ⟨by simp [hs], by simp [hs, hreg], by simp [hs, hm], fun st hst _ _ => ?_⟩
      cases hs.symm.trans hst
      rw [hcall, hf.outcome_eq, hf.acts_eq]
      exact ⟨rfl, rfl, rfl⟩
  | loaded hs hreg hm hd hc hn ho =>
      refine ⟨by simp [hs], by simp [hs, hreg], by simp [hs, hm], fun st hst _ _ => ?_⟩
      cases hs.symm.trans hst
      rw [hcall]
      simp [ReloadAnswers.outcome, ReloadAnswers.acts, Database.loaded, hd, hc, hn, ho, Except.map]

/-! ## All calls -/

theorem records_reloadAll (path : Option (List UInt8)) (calls : List ReloadAnswers) :
    Records (latestAttempt calls) (reloadAll path calls) := by
  induction calls using List.reverseRecOn with
  | nil => exact ⟨rfl, fun _ => ⟨rfl, rfl⟩, nofun⟩
  | append_singleton calls ans ih =>
      rw [latestAttempt_concat, reloadAll_concat]
      exact (maybeAutoReload_reloads _ ans).records ih

theorem released_reloadAll (path : Option (List UInt8)) (calls : List ReloadAnswers) :
    Released (reloadAll path calls) := by
  induction calls using List.reverseRecOn with
  | nil => exact ⟨⟨nofun, List.nodup_nil, nofun⟩, nofun, nofun, History.every_nil⟩
  | append_singleton calls ans ih =>
      rw [reloadAll_concat]
      exact (maybeAutoReload_reloads _ ans).released ih

/-- **The books of the automatic reload are right after any calls**, and so is what the next call
does. -/
theorem bookkeeping (path : Option (List UInt8)) (calls : List ReloadAnswers) :
    Records (latestAttempt calls) (reloadAll path calls) ∧ Released (reloadAll path calls) ∧
      ∀ ans, Behaves (latestAttempt calls) (reloadAll path calls) ans :=
  ⟨records_reloadAll path calls, released_reloadAll path calls,
    fun ans => (records_reloadAll path calls).behaves ans⟩

end Database

end UoLogin
