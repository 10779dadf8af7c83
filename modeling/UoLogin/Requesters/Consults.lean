import UoLogin.Requesters.Model

set_option autoImplicit false

/-!
# When a connection asks

Only the handler that completes the login packets calls `CheckCredentials`, and then the connection holds
a `cancel_ptr` exactly if the check was queued.

* `Unasking`: nothing was asked, and the check that there may be was left alone;
* `Consults`: the ways a handler can end, by the answer of the database;
* **`dispatch_consults`**: so ends every callback but that of the job.
-/

namespace UoLogin

namespace Connection

variable {setup : Setup} {ans : Answers} {c c₁ c₂ c' : Connection} {r : Result}

structure Unasking (c c' : Connection) : Prop where
  log : ∃ acts, c'.log = c.log ++ acts ∧ ∀ a ∈ acts, a.credentials = none
  cancelPtr : c'.cancelPtr = c.cancelPtr
  job : c'.job = c.job

theorem Unasking.refl (c : Connection) : Unasking c c :=
  ⟨⟨[], (List.append_nil _).symm, nofun⟩, rfl, rfl⟩

theorem Unasking.trans (h : Unasking c c₁) (h' : Unasking c₁ c₂) : Unasking c c₂ := by
  obtain ⟨as, hlog, ha⟩ := h.log
  obtain ⟨bs, hlog', hb⟩ := h'.log
  refine ⟨⟨as ++ bs, by rw [hlog', hlog, List.append_assoc], fun a hm => ?_⟩,
    h'.cancelPtr.trans h.cancelPtr, h'.job.trans h.job⟩
  rcases List.mem_append.mp hm with hm | hm
  · exact ha a hm
  · exact hb a hm

/-- Entries that are no call of `CheckCredentials`. -/
theorem unasking_emits (c : Connection) {acts : List Act} (ha : ∀ a ∈ acts, a.credentials = none) :
    Unasking c (c.emits acts) :=
  ⟨⟨acts, rfl, ha⟩, rfl, rfl⟩

theorem unasking_emit (c : Connection) {a : Act} (ha : a.credentials = none) : Unasking c (c.emit a) :=
  unasking_emits c (List.forall_mem_singleton.mpr ha)

/-- The log, the `cancel_ptr` and the job are as they were. -/
theorem unasking_of_eq (hlog : c'.log = c.log) (hp : c'.cancelPtr = c.cancelPtr) (hj : c'.job = c.job) :
    Unasking c c' :=
  ⟨⟨[], hlog.trans (List.append_nil _).symm, nofun⟩, hp, hj⟩

theorem Quiet.credentials {acts : List Act} (h : Quiet acts) : ∀ a ∈ acts, a.credentials = none := by
  intro a hm
  have hq := h a hm
  cases a <;> first | rfl | cases hq

theorem Rejection.credentials {acts : List Act} (h : Rejection acts) :
    ∀ a ∈ acts, a.credentials = none := by
  cases h with
  | skipped => exact nofun
  | sent hb => simp [Act.credentials]

theorem unasking_updateTokenBucket (c : Connection) (size : ℕ) :
    Unasking c (c.updateTokenBucket size) := by
  rw [updateTokenBucket_eq]
  exact unasking_emits c (Quiet.credentials (quiet_charge c size))

theorem unasking_rejectLogin (c : Connection) (ans : Answers) : Unasking c (c.rejectLogin ans) := by
  obtain ⟨acts, ha, he⟩ := rejectLogin_cases c ans
  rw [he]
  exact unasking_emits c (Rejection.credentials ha)

/-! ## Connecting -/

theorem Establishes.unasking (h : Establishes setup c r) : Unasking c r.conn := by
  cases h with
  | failed => exact .refl c
  | sendPlayServer | ready =>
      refine ⟨⟨_, List.append_assoc .., ?_⟩, rfl, rfl⟩
      simp [Act.credentials]

theorem Connects.unasking {address : SocketAddress} (h : Connects setup address c r) :
    Unasking c r.conn := by
  have hc : Unasking c (c.emit (.connect address)) := unasking_emit c rfl
  cases h with
  | pending => exact hc.trans (unasking_of_eq rfl rfl rfl)
  | failed => exact hc.trans (unasking_emit _ rfl)
  | now h => exact hc.trans h.unasking

theorem Accepts.unasking (h : Accepts setup c r) : Unasking c r.conn := by
  cases h with
  | failed => exact .refl c
  | listed =>
      refine ⟨⟨_, List.append_assoc .., ?_⟩, rfl, rfl⟩
      simp [Act.credentials]
  | direct hl h =>
      have hc : Unasking c (c.direct setup) := ⟨⟨[.state .connecting], rfl, by simp [Act.credentials]⟩, rfl, rfl⟩
      exact hc.trans h.unasking

theorem Plays.unasking (h : Plays setup c r) : Unasking c r.conn := by
  cases h with
  | failed => exact unasking_of_eq rfl rfl rfl
  | @connects packet rest server hq hlen hs r h =>
      have hc : Unasking c (c.chosen packet rest server) :=
        ⟨⟨[.state .connecting], rfl, by simp [Act.credentials]⟩, rfl, rfl⟩
      exact hc.trans h.unasking

theorem Lists.unasking (h : Lists c r) : Unasking c r.conn := by
  cases h with
  | failed => exact unasking_of_eq rfl rfl rfl
  | played =>
      refine ⟨⟨_, List.append_assoc .., ?_⟩, rfl, rfl⟩
      simp [Act.credentials]

/-! ## The relay -/

section Relay

variable {d : Dir} {ch : SpliceChoice}

theorem Sends.asks_nothing (h : Sends c d ch r) :
    ∃ acts, r.conn.log = c.log ++ acts ∧ ∀ a ∈ acts, a.credentials = none := by
  obtain ⟨bytes, hlog, -⟩ := h.log
  exact ⟨_, hlog, by simp [Act.credentials]⟩

theorem Sends.unasking (h : Sends c d ch r) : Unasking c r.conn :=
  ⟨h.asks_nothing, congrArg Core.cancelPtr h.frame.core, congrArg Core.job h.frame.core⟩

theorem unasking_received (s : Splice UInt8) {bytes rest : List UInt8} (result : ReceiveResult)
    (hq : (c.inbound d.source).queue = bytes ++ rest) : Unasking c (c.received d s bytes rest result) :=
  have hframe := frame_received d s result hq
  ⟨⟨_, log_received d s bytes rest result c, by simp [Act.credentials]⟩,
    congrArg Core.cancelPtr hframe.core, congrArg Core.job hframe.core⟩

theorem Receives.unasking (h : Receives c d ch r) : Unasking c r.conn := by
  cases h with
  | throws =>
      have hframe := frame_setSplice c d (c.splice d).clearReceived
      have hc : Unasking c (c.setSplice (c.splice d).clearReceived d) :=
        unasking_of_eq (log_setSplice ..) (congrArg Core.cancelPtr hframe.core)
          (congrArg Core.job hframe.core)
      exact hc.trans (unasking_emit _ rfl)
  | got hq ht hd hz hp h =>
      exact ((unasking_received _ _ hq).trans (unasking_emit _ rfl)).trans h.unasking
  | blocked hq => exact unasking_received _ _ hq
  | closed hq =>
      exact ((unasking_received _ _ hq).trans (unasking_emit _ rfl)).trans (unasking_emit _ rfl)
  | failed hq => exact unasking_received _ _ hq

theorem Relays.unasking {side : Side} {events : Events} (h : Relays c side events ans r) :
    Unasking c r.conn := by
  have hflush : ∀ {c'}, Flushes c side events ans c' → Unasking c c' := by
    intro c' hf
    cases hf with
    | skipped => exact .refl c
    | sent hw hz h => exact h.unasking
  cases h with
  | failed hw hz h => exact h.unasking
  | sent h hr => exact hflush h
  | received h hr h' => exact (hflush h).trans h'.unasking

end Relay

/-! ## The login -/

theorem Unasking.consulted (h : Unasking c c') : c.consulted c' = none := by
  obtain ⟨acts, hlog, ha⟩ := h.log
  unfold Connection.consulted
  rw [hlog, List.drop_left]
  exact List.findSome?_eq_none_iff.mpr ha

/-- The call of `CheckCredentials`, and nothing else before it. -/
theorem consulted_of_unasking {username password : List UInt8} (h : Unasking c c₁)
    (hp : (c₁.emit (.checkCredentials username password)).log <+: c'.log) :
    c.consulted c' = some (username, password) := by
  obtain ⟨acts, hlog, ha⟩ := h.log
  obtain ⟨more, hmore⟩ := hp
  have hsince : c'.log = c.log ++ (acts ++ (.checkCredentials username password :: more)) := by
    rw [← hmore, ← List.append_assoc, ← hlog]
    exact List.append_assoc _ [_] more
  unfold Connection.consulted
  rw [hsince, List.drop_left, List.findSome?_append, List.findSome?_eq_none_iff.mpr ha]
  rfl

/-- How a handler ends, by the answer of the database if it was asked. -/
inductive Consults (c : Connection) (choice : CheckChoice) : Result → Prop
  | unasked {r : Result} (h : Unasking c r.conn) : Consults c choice r
  | throws {c' : Connection} {username password : List UInt8} (hch : choice = .throws)
      (hn : c.cancelPtr = false) (ha : c.consulted c' = some (username, password))
      (hp : c'.cancelPtr = false) : Consults c choice (.destroyed c')
  | noDatabase {r : Result} {username password : List UInt8} (hch : choice = .noDatabase)
      (hn : c.cancelPtr = false) (ha : c.consulted r.conn = some (username, password))
      (hp : r.conn.cancelPtr = false) (hr : r.outcome = .ok r.conn) : Consults c choice r
  | queued {c' : Connection} {username password : List UInt8} (hch : choice = .queued)
      (hn : c.cancelPtr = false) (ha : c.consulted c' = some (username, password))
      (hp : c'.cancelPtr = true) (hj : c'.job = some (username, password)) :
      Consults c choice (.alive c')

theorem Judges.cancelPtr {username : List UInt8} {result : Bool} (h : Judges setup username c result r) :
    r.conn.cancelPtr = false ∧ r.outcome = .ok r.conn := by
  cases h with
  | rejected => exact ⟨rfl, rfl⟩
  | accepted hq h => exact ⟨h.unasking.cancelPtr, h.survives.outcome⟩

theorem checkCredentials_consults {username password : List UInt8} (hn : c.cancelPtr = false)
    (h : Unasking c c₁)
    (hs : c₁.state = .checkCredentials) (hf : c₁.initialPacketsFill = initialSize) :
    Consults c ans.check (c₁.checkCredentials setup ans username password) := by
  unfold checkCredentials
  cases hch : ans.check with
  | throws =>
      have hrest := (unasking_updateTokenBucket (c₁.emit (.checkCredentials username password)) 2).trans
        (unasking_rejectLogin _ ans)
      obtain ⟨acts, hlog, -⟩ := hrest.log
      have hp := (hrest.cancelPtr.trans h.cancelPtr).trans hn
      exact .throws rfl hn (consulted_of_unasking h ⟨acts, hlog.symm⟩) hp
  | noDatabase =>
      have hjudges : Judges setup username (c₁.emit (.checkCredentials username password)) true _ :=
        onCheckCredentials_judges ans username true hs hf
      exact .noDatabase rfl hn (consulted_of_unasking h hjudges.log_grows) hjudges.cancelPtr.1
        hjudges.cancelPtr.2
  | queued => exact .queued rfl hn (consulted_of_unasking h List.prefix_rfl) rfl rfl

theorem loginComplete_consults (hn : c.cancelPtr = false) (h : Unasking c c₁)
    (hf : c₁.initialPacketsFill = initialSize) :
    Consults c ans.check (c₁.loginComplete setup ans) := by
  have hcomplete : Unasking c c₁.complete := h.trans (unasking_of_eq rfl rfl rfl)
  have hmalformed : Unasking c (c₁.complete.emit (.metric .malformedLogins 1)) :=
    hcomplete.trans (unasking_emit _ rfl)
  unfold loginComplete
  simp only
  split
  · exact .unasked (hmalformed.trans (unasking_updateTokenBucket _ 10))
  · split
    · exact .unasked ((hmalformed.trans (unasking_updateTokenBucket _ 8)).trans
        (unasking_rejectLogin _ ans))
    · have hstate : Unasking c (c₁.complete.setState .checkCredentials) :=
        hcomplete.trans ⟨⟨[.state .checkCredentials], rfl, by simp [Act.credentials]⟩, rfl, rfl⟩
      exact checkCredentials_consults hn hstate rfl hf

theorem receiveLoginPackets_consults (hn : c.cancelPtr = false) (hs : c.state = .initial)
    (hf : c.initialPacketsFill < initialSize) :
    Consults c ans.check (c.receiveLoginPackets setup ans) := by
  rcases c.client.readNoWait_cases (initialSize - c.initialPacketsFill) ans.read with
    h | ⟨bytes, rest, hne, hlen, hq, h⟩
  · unfold receiveLoginPackets
    rw [if_neg (not_not.mpr hs), if_neg (not_not.mpr hf), h]
    exact .unasked (.refl c)
  · have hfilled : Unasking c (c.filled bytes rest) := unasking_of_eq rfl rfl rfl
    have hfits : c.initialPacketsFill + bytes.length ≤ initialSize := by omega
    have hfill := initialPacketsFill_filled rest hfits
    rw [receiveLoginPackets_read hs hf h]
    split
    · exact .unasked hfilled
    · exact loginComplete_consults hn hfilled (by omega)

theorem onIncomingReady_consults (hi : Inv setup c) (stock : PipeStock UInt8) (events : Events)
    (hs : c.state = .initial) :
    Consults c ans.check (c.onIncomingReady setup stock events ans).2 := by
  have hn : c.cancelPtr = false := by
    have hres := hi.resources
    rw [hs] at hres
    exact congrArg Resources.cancel hres
  unfold onIncomingReady
  rw [if_pos hs, if_pos hs]
  split
  · exact .unasked (unasking_updateTokenBucket c 4)
  · split
    · exact .unasked (.refl c)
    · split
      · exact .unasked (.refl c)
      · exact receiveLoginPackets_consults hn hs (hi.fill hs)

/-- **So ends every callback, except that of the job.** -/
theorem dispatch_consults {stock stock' : PipeStock UInt8} {e : Event} (hi : Inv setup c)
    (h : dispatch setup stock c ans e = some (stock', r)) (he : ∀ result, e ≠ .checkDone result) :
    Consults c ans.check r := by
  cases dispatch_called hi h with
  | @dies e timeout connect quiet hq =>
      have hc : Unasking c ((c.setTimeout timeout).setConnect connect) := unasking_of_eq rfl rfl rfl
      exact .unasked (hc.trans (unasking_emits _ (Quiet.credentials hq)))
  | connectPending => exact .unasked (.refl c)
  | @logsIn events hs =>
      have hr : Consults c ans.check (c.onIncomingReady setup stock events ans).2 :=
        onIncomingReady_consults hi stock events hs
      simp only [dispatch] at h
      split at h
      · rw [Option.some.inj h] at hr
        exact hr
      · cases h
  | plays hs h => exact .unasked h.unasking
  | lists hs h => exact .unasked h.unasking
  | relays hs hd hdead he h => exact .unasked h.unasking
  | establishes hs h =>
      have hc : Unasking c (c.setConnect none) := unasking_of_eq rfl rfl rfl
      exact .unasked (hc.trans h.unasking)
  | judges => exact (he _ rfl).elim

end Connection

end UoLogin
