import UoLogin.Database.Model

set_option autoImplicit false

/-!
# What the database can do

For every function of the database, the ways it can end, whatever the kernel and Berkeley DB answer;
and the books on its handles.

* `Reloads`, `Checks`: `MaybeAutoReload` and `CheckCredentials`;
* `Verifies`: `CheckPassword`;
* `Handles`: the member `db` holds an open handle or none, and no handle was closed twice;
  **`Reloads.handles`**: a reload keeps it so.
-/

namespace UoLogin

namespace Database

/-! ## What a reload can do -/

/-- How an attempt to load the file fails, with the entries that it leaves in the log and the number
of handles after it. -/
inductive Fails (ans : ReloadAnswers) (size : ℤ) (n : ℕ) :
    DatabaseError → List DatabaseAct → ℕ → Prop
  | noRuntimeDirectory (hr : ans.runtimeDirectory = false) :
      Fails ans size n .noRuntimeDirectory [] n
  | copyRegularFile (hr : ans.runtimeDirectory = true) (hc : ans.copyRegularFile = false) :
      Fails ans size n .copyRegularFile [.copyRegularFile size] n
  | dbCreate (hr : ans.runtimeDirectory = true) (hc : ans.copyRegularFile = true)
      (hd : ans.dbCreate = false) : Fails ans size n .dbCreate [.copyRegularFile size] n
  | dbOpen (hr : ans.runtimeDirectory = true) (hc : ans.copyRegularFile = true)
      (hd : ans.dbCreate = true) (ho : ans.dbOpen = none) :
      Fails ans size n .dbOpen [.copyRegularFile size, .close n] (n + 1)

/-- The database after an attempt that failed. -/
def lost (d : Database) (st : Stat) (e : DatabaseError) (acts : List DatabaseAct) (n : ℕ) : Database :=
  { d with
    db := none, lastMtime := st.mtime, lastReloadError := some e, handles := n
    log := d.log ++ closing d.db ++ acts }

/-- The database after an attempt that succeeded. -/
def loaded (d : Database) (st : Stat) (contents : Contents) : Database :=
  { d with
    db := some ⟨d.handles, contents⟩, lastMtime := st.mtime, lastReloadError := none
    handles := d.handles + 1
    log := d.log ++ closing d.db ++ [.copyRegularFile st.size, .opened ⟨d.handles, contents⟩] }

inductive Reloads (d : Database) (ans : ReloadAnswers) : Except DatabaseError Unit × Database → Prop
  | stat (hs : ans.stat = none) : Reloads d ans (.error .stat, d)
  | notRegularFile {st : Stat} (hs : ans.stat = some st) (hr : st.regular = false) :
      Reloads d ans (.error .notRegularFile, d)
  | rethrows {st : Stat} (hs : ans.stat = some st) (hr : st.regular = true)
      (hm : st.mtime = d.lastMtime) {e : DatabaseError} (he : d.lastReloadError = some e) :
      Reloads d ans (.error e, d)
  | unchanged {st : Stat} (hs : ans.stat = some st) (hr : st.regular = true)
      (hm : st.mtime = d.lastMtime) (he : d.lastReloadError = none) : Reloads d ans (.ok (), d)
  | failed {st : Stat} (hs : ans.stat = some st) (hr : st.regular = true)
      (hm : st.mtime ≠ d.lastMtime) {e : DatabaseError} {acts : List DatabaseAct} {n : ℕ}
      (h : Fails ans st.size d.handles e acts n) : Reloads d ans (.error e, d.lost st e acts n)
  | loaded {st : Stat} (hs : ans.stat = some st) (hr : st.regular = true)
      (hm : st.mtime ≠ d.lastMtime) (hd : ans.runtimeDirectory = true)
      (hc : ans.copyRegularFile = true) (hn : ans.dbCreate = true) {contents : Contents}
      (ho : ans.dbOpen = some contents) : Reloads d ans (.ok (), d.loaded st contents)

theorem maybeAutoReload_reloads (d : Database) (ans : ReloadAnswers) :
    Reloads d ans (d.maybeAutoReload ans) := by
  unfold maybeAutoReload
  split
  · rename_i hs
    exact .stat hs
  rename_i st hs
  cases hr : st.regular with
  | false => exact .notRegularFile hs hr
  | true =>
      simp only [Bool.not_true, Bool.false_eq_true, if_false]
      by_cases hm : st.mtime = d.lastMtime
      · rw [if_pos hm]
        cases he : d.lastReloadError with
        | some e => exact .rethrows hs hr hm he
        | none => exact .unchanged hs hr hm he
      · rw [if_neg hm]
        unfold doAutoReload berkeleyDB
        cases hd : ans.runtimeDirectory with
        | false =>
            have h := Reloads.failed (d := d) hs hr hm (.noRuntimeDirectory hd)
            simp only [lost, List.append_nil] at h
            exact h
        | true =>
            cases hc : ans.copyRegularFile with
            | false => exact .failed hs hr hm (.copyRegularFile hd hc)
            | true =>
                cases hn : ans.dbCreate with
                | false => exact .failed hs hr hm (.dbCreate hd hc hn)
                | true =>
                    cases ho : ans.dbOpen with
                    | none =>
                        have h := Reloads.failed (d := d) hs hr hm (.dbOpen hd hc hn ho)
                        simp only [lost] at h
                        simp only [if_true, assign, emits, List.append_assoc]
                        simp only [List.append_assoc] at h
                        exact h
                    | some contents =>
                        have h := Reloads.loaded (d := d) hs hr hm hd hc hn ho
                        simp only [Database.loaded] at h
                        simp only [if_true, assign, emits, closing, List.append_assoc]
                        simp only [closing, List.append_assoc] at h
                        exact h

/-- The database that a call goes on with. -/
def Settles (d : Database) (ans : ReloadAnswers) (d' : Database) : Prop :=
  d.autoReload = false ∧ d' = d ∨ d.autoReload = true ∧ Reloads d ans (.ok (), d')

/-- What `checkCredentials` can do. -/
inductive Checks (d : Database) (ans : ReloadAnswers) : Checked × Database → Prop
  | throws (hr : d.autoReload = true) {e : DatabaseError} {d' : Database}
      (h : Reloads d ans (.error e, d')) : Checks d ans (.throws e, d')
  | calledBack {d' : Database} (h : Settles d ans d') (hd : d'.db = none) :
      Checks d ans (.calledBack, d')
  | queued {d' : Database} (h : Settles d ans d') (hd : d'.db.isSome = true) :
      Checks d ans (.queued, d')

theorem checkCredentials_checks (d : Database) (ans : ReloadAnswers) :
    Checks d ans (d.checkCredentials ans) := by
  have hsettles : ∀ {d'}, Settles d ans d' →
      Checks d ans (if d'.db.isNone then .calledBack else .queued, d') := by
    intro d' h
    cases hd : d'.db with
    | none => exact .calledBack h hd
    | some handle => exact .queued h (by rw [hd]; rfl)
  unfold checkCredentials
  cases hr : d.autoReload with
  | false => exact hsettles (.inl ⟨hr, rfl⟩)
  | true =>
      have h := maybeAutoReload_reloads d ans
      simp only [if_true]
      generalize d.maybeAutoReload ans = res at h
      obtain ⟨res, d'⟩ := res
      cases res with
      | error e => exact .throws hr h
      | ok _ => exact hsettles (.inr ⟨hr, h⟩)

end Database

/-! ## What a worker can do -/

/-- What `checkPassword` can do. -/
inductive Verifies (v : Verifier) (id : ℕ) (db : Option Handle) (fails : Bool)
    (username password : List UInt8) : Except Stop Bool × List DatabaseAct → Prop
  | tooLong (hl : username.length > 30) :
      Verifies v id db fails username password (.ok false, [])
  | notOpen (hl : username.length ≤ 30) (hd : db = none) :
      Verifies v id db fails username password (.error (.abort .getOpen), [.get id none])
  | throws (hl : username.length ≤ 30) {h : Handle} (hd : db = some h) {e : DatabaseError}
      (hg : h.get (v.key username) pwhashStrbytes fails = .error e) :
      Verifies v id db fails username password (.error .throws, [.get id (some h)])
  | refused (hl : username.length ≤ 30) {h : Handle} (hd : db = some h) {value : List UInt8}
      (hg : h.get (v.key username) pwhashStrbytes fails = .ok value)
      (hv : value.length = 0 ∨ value.length ≥ pwhashStrbytes) :
      Verifies v id db fails username password (.ok false, [.get id (some h)])
  | verified (hl : username.length ≤ 30) {h : Handle} (hd : db = some h) {value : List UInt8}
      (hg : h.get (v.key username) pwhashStrbytes fails = .ok value)
      (hv : ¬ (value.length = 0 ∨ value.length ≥ pwhashStrbytes)) :
      Verifies v id db fails username password (.ok (v.verify value password),
        [.get id (some h), .verify id h value password (v.verify value password)])

theorem checkPassword_verifies (v : Verifier) (id : ℕ) (db : Option Handle) (fails : Bool)
    (username password : List UInt8) :
    Verifies v id db fails username password (checkPassword v id db fails username password) := by
  unfold checkPassword
  split
  · rename_i hl
    exact .tooLong hl
  rename_i hl
  have hl : username.length ≤ 30 := Nat.le_of_not_lt hl
  cases hd : db with
  | none => exact .notOpen hl rfl
  | some h =>
      simp only
      cases hg : h.get (v.key username) pwhashStrbytes fails with
      | error e => exact .throws hl rfl hg
      | ok value =>
          simp only
          split
          · rename_i hv
            exact .refused hl rfl hg hv
          · rename_i hv
            exact .verified hl rfl hg hv

/-- A value that was found is the stored one. -/
theorem Handle.contents_of_get {h : Handle} {key value : List UInt8} {size : ℕ} {fails : Bool}
    (hg : h.get key size fails = .ok value) (hv : value ≠ []) : h.contents key = some value := by
  unfold Handle.get at hg
  split at hg
  · cases hg
  · split at hg
    · cases hg
      exact (hv rfl).elim
    · rename_i hc
      split at hg
      · cases hg
        exact hc
      · cases hg

/-! ## Handles -/

/-- The entries that `MaybeAutoReload` leaves. -/
def DatabaseAct.reloading : DatabaseAct → Bool
  | .opened _ | .close _ | .copyRegularFile _ => true
  | _ => false

/-- The handles that were closed. -/
def closes (log : List DatabaseAct) : List ℕ :=
  log.filterMap fun
    | .close n => some n
    | _ => none

theorem closes_append (as bs : List DatabaseAct) : closes (as ++ bs) = closes as ++ closes bs :=
  List.filterMap_append

theorem mem_closes {n : ℕ} {log : List DatabaseAct} : n ∈ closes log ↔ .close n ∈ log := by
  unfold closes
  rw [List.mem_filterMap]
  constructor
  · rintro ⟨a, ha, hn⟩
    cases a <;> cases hn
    exact ha
  · intro h
    exact ⟨_, h, rfl⟩

theorem closes_append_quiet {acts : List DatabaseAct} (log : List DatabaseAct) (ha : closes acts = []) :
    closes (log ++ acts) = closes log := by
  rw [closes_append, ha, List.append_nil]

/-- Only handles below `n` were closed, and none of them twice. -/
def ClosedOnce (n : ℕ) (log : List DatabaseAct) : Prop :=
  (∀ m ∈ closes log, m < n) ∧ (closes log).Nodup

theorem ClosedOnce.quiet {n : ℕ} {log : List DatabaseAct} (h : ClosedOnce n log)
    (acts : List DatabaseAct) (ha : closes acts = []) : ClosedOnce n (log ++ acts) := by
  unfold ClosedOnce
  rw [closes_append_quiet log ha]
  exact h

theorem ClosedOnce.mono {n n' : ℕ} {log : List DatabaseAct} (h : ClosedOnce n log) (hn : n ≤ n') :
    ClosedOnce n' log :=
  ⟨fun m hm => Nat.lt_of_lt_of_le (h.1 m hm) hn, h.2⟩

/-- One more handle is closed. -/
theorem ClosedOnce.close {n m : ℕ} {log : List DatabaseAct} (h : ClosedOnce n log) (hm : m < n)
    (hopen : m ∉ closes log) (acts : List DatabaseAct) (ha : closes acts = [m]) :
    ClosedOnce n (log ++ acts) := by
  unfold ClosedOnce
  rw [closes_append, ha]
  refine ⟨fun k hk => ?_, ?_⟩
  · rcases List.mem_append.mp hk with hk | hk
    · exact h.1 k hk
    · rw [List.mem_singleton.mp hk]
      exact hm
  · refine List.nodup_append.mpr ⟨h.2, List.nodup_singleton m, fun a hlog b hb he => hopen ?_⟩
    rwa [← List.mem_singleton.mp hb, ← he]

namespace Database

variable {d d' : Database} {ans : ReloadAnswers} {res : Except DatabaseError Unit}

/-- **The books on the handles.** The member `db` holds an open handle, and none was closed twice. -/
structure Handles (d : Database) : Prop where
  closed : ∀ n ∈ closes d.log, n < d.handles
  once : (closes d.log).Nodup
  db : ∀ h, d.db = some h → h.id < d.handles ∧ .opened h ∈ d.log ∧ h.id ∉ closes d.log

theorem Handles.emits (h : Handles d) {acts : List DatabaseAct} (ha : closes acts = []) :
    Handles (d.emits acts) := by
  obtain ⟨hlt, hnodup⟩ := ClosedOnce.quiet ⟨h.closed, h.once⟩ acts ha
  refine ⟨hlt, hnodup, fun h' hd => ?_⟩
  obtain ⟨hlt', hopened, hclosed⟩ := h.db h' hd
  refine ⟨hlt', List.mem_append_left _ hopened, ?_⟩
  change h'.id ∉ closes (d.log ++ acts)
  rw [closes_append_quiet d.log ha]
  exact hclosed

/-- The handle that is replaced is closed for the first time. -/
theorem Handles.closing (h : Handles d) : ClosedOnce d.handles (d.log ++ closing d.db) := by
  have hlog : ClosedOnce d.handles d.log := ⟨h.closed, h.once⟩
  cases hd : d.db with
  | none => exact hlog.quiet _ rfl
  | some old =>
      obtain ⟨hlt, -, hclosed⟩ := h.db old hd
      exact hlog.close hlt hclosed _ rfl

theorem Reloads.handles (hr : Reloads d ans (res, d')) (h : Handles d) : Handles d' := by
  have hclosing := h.closing
  have hnew : d.handles ∉ closes (d.log ++ Database.closing d.db) := fun hn =>
    Nat.lt_irrefl _ (hclosing.1 _ hn)
  cases hr with
  | stat | notRegularFile | rethrows | unchanged => exact h
  | @failed st hs hr hm e acts n hf =>
      cases hf with
      | noRuntimeDirectory =>
          obtain ⟨hlt, hnodup⟩ := hclosing.quiet [] rfl
          exact ⟨hlt, hnodup, nofun⟩
      | copyRegularFile | dbCreate =>
          obtain ⟨hlt, hnodup⟩ := hclosing.quiet [.copyRegularFile st.size] rfl
          exact ⟨hlt, hnodup, nofun⟩
      | dbOpen =>
          obtain ⟨hlt, hnodup⟩ := (hclosing.mono (Nat.le_succ _)).close (Nat.lt_succ_self _) hnew
            [.copyRegularFile st.size, .close d.handles] rfl
          exact ⟨hlt, hnodup, nofun⟩
  | @loaded st hs hr hm hd hc hn contents ho =>
      obtain ⟨hlt, hnodup⟩ := (hclosing.mono (Nat.le_succ _)).quiet
        [.copyRegularFile st.size, .opened ⟨d.handles, contents⟩] rfl
      refine ⟨hlt, hnodup, fun h' hd => ?_⟩
      cases hd
      refine ⟨Nat.lt_succ_self _, ?_, ?_⟩
      · exact List.mem_append_right _ (List.mem_cons_of_mem _ List.mem_cons_self)
      · change d.handles ∉ closes (d.log ++ Database.closing d.db ++ _)
        rw [closes_append_quiet _ rfl]
        exact hnew

/-- A call reloads, or leaves the database alone. -/
theorem Checks.cases {checked : Checked} (h : Checks d ans (checked, d')) :
    d' = d ∨ ∃ res, Reloads d ans (res, d') := by
  have hsettles : Settles d ans d' → d' = d ∨ ∃ res, Reloads d ans (res, d') := by
    rintro (⟨-, rfl⟩ | ⟨-, h⟩)
    · exact .inl rfl
    · exact .inr ⟨_, h⟩
  cases h with
  | throws hr h => exact .inr ⟨_, h⟩
  | calledBack h hd => exact hsettles h
  | queued h hd => exact hsettles h

theorem Checks.handles {checked : Checked} (hc : Checks d ans (checked, d')) (h : Handles d) :
    Handles d' := by
  rcases hc.cases with rfl | ⟨res, hr⟩
  · exact h
  · exact hr.handles h

theorem reloading_closing (db : Option Handle) : ∀ a ∈ closing db, a.reloading = true := by
  intro a ha
  cases db with
  | none => cases ha
  | some h =>
      rw [List.mem_singleton.mp ha]
      rfl

/-- A call only leaves entries about handles in the log. -/
theorem Checks.log {checked : Checked} (hc : Checks d ans (checked, d')) :
    ∃ acts, d'.log = d.log ++ acts ∧ ∀ a ∈ acts, a.reloading = true := by
  have hsame : ∃ acts, d.log = d.log ++ acts ∧ ∀ a ∈ acts, a.reloading = true :=
    ⟨[], (List.append_nil _).symm, nofun⟩
  have happend : ∀ acts : List DatabaseAct, (∀ a ∈ acts, a.reloading = true) →
      ∃ acts', d.log ++ closing d.db ++ acts = d.log ++ acts' ∧ ∀ a ∈ acts', a.reloading = true := by
    intro acts ha
    refine ⟨closing d.db ++ acts, List.append_assoc _ _ _, fun a hm => ?_⟩
    rcases List.mem_append.mp hm with hm | hm
    · exact reloading_closing d.db a hm
    · exact ha a hm
  rcases hc.cases with rfl | ⟨res, hr⟩
  · exact hsame
  · cases hr with
    | stat | notRegularFile | rethrows | unchanged => exact hsame
    | failed hs hr hm hf =>
        refine happend _ ?_
        cases hf <;> simp [DatabaseAct.reloading]
    | loaded hs hr hm hd hc hn ho => exact happend _ (by simp [DatabaseAct.reloading])

/-- A database that was ever open is open, or remembers why it is not. -/
theorem Checks.open_or_error {checked : Checked} (hc : Checks d ans (checked, d'))
    (h : d.db.isSome = true ∨ d.lastReloadError.isSome = true) :
    d'.db.isSome = true ∨ d'.lastReloadError.isSome = true := by
  rcases hc.cases with rfl | ⟨res, hr⟩
  · exact h
  · cases hr with
    | stat | notRegularFile | rethrows | unchanged => exact h
    | failed => exact .inr rfl
    | loaded => exact .inl rfl

/-- A database that remembers a failed attempt is closed. -/
def Exclusive (d : Database) : Prop := d.lastReloadError.isSome = true → d.db = none

theorem Checks.exclusive {checked : Checked} (hc : Checks d ans (checked, d')) (h : Exclusive d) :
    Exclusive d' := by
  rcases hc.cases with rfl | ⟨res, hr⟩
  · exact h
  · cases hr with
    | stat | notRegularFile | rethrows | unchanged => exact h
    | failed => exact fun _ => rfl
    | loaded => exact nofun

/-- A new database has its file open, or none. -/
theorem new_cases {path : Option (List UInt8)} {autoReload : Bool}
    (h : new path autoReload ans = .ok d) :
    (path = none ∨ autoReload = true) ∧ d = { path := path, autoReload := autoReload } ∨
      ∃ contents, autoReload = false ∧ d =
        { path := path, autoReload := autoReload, db := some ⟨0, contents⟩, handles := 1
          log := [.opened ⟨0, contents⟩] } := by
  unfold new berkeleyDB at h
  simp only at h
  split at h
  · rename_i hp
    cases hn : ans.dbCreate with
    | false => simp [hn] at h
    | true =>
        cases ho : ans.dbOpen with
        | none => simp [hn, ho] at h
        | some contents =>
            simp only [hn, ho, if_true] at h
            cases h
            exact .inr ⟨contents, by simpa using (Bool.and_eq_true_iff.mp hp).2, rfl⟩
  · rename_i hp
    cases h
    refine .inl ⟨?_, rfl⟩
    cases path with
    | none => exact .inl rfl
    | some path => exact .inr (by simpa using hp)

theorem handles_new {path : Option (List UInt8)} {autoReload : Bool}
    (h : new path autoReload ans = .ok d) : Handles d := by
  rcases new_cases h with ⟨-, rfl⟩ | ⟨contents, -, rfl⟩
  · exact ⟨nofun, List.nodup_nil, nofun⟩
  · refine ⟨nofun, List.nodup_nil, fun h' hd => ?_⟩
    cases hd
    exact ⟨Nat.lt_succ_self _, List.mem_cons_self, nofun⟩

end Database

end UoLogin
