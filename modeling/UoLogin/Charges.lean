import UoLogin.Connection.Log
import UoLogin.Instance

set_option autoImplicit false

/-!
# The price of a failed login

A login that fails is meant to cost the client at least 2 tokens of its bucket. Until the verdict a
live connection has not been charged at all (`Free`), so the charge has to be made by the callback that
ends it.

* `Escapes`: the two exits without a charge, a hangup while the credentials are being checked and a
  read error in `INITIAL`;
* **`failed_login_charged_iff`**: in every run, a connection of an accounted client that ends before a
  positive verdict was charged exactly if its last callback is neither of these;
* `hangup_is_free`: a client that leaves during the check pays nothing.
-/

namespace UoLogin

namespace Connection

variable {setup : Setup} {c c' : Connection} {r : Result} {stock stock' : PipeStock UInt8}
  {ans : Answers}

/-- The verdict was positive. -/
def Approved (c : Connection) : Prop := ∃ username, .onCheckCredentials username true ∈ c.log

/-- `UpdateTokenBucket` was called with at least 2. -/
def Charged (c : Connection) : Prop := ∃ size, 2 ≤ size ∧ .updateTokenBucket size ∈ c.log

/-- Nothing was charged yet, and no verdict is there. -/
structure Free (c : Connection) : Prop where
  state : c.state = .initial ∨ c.state = .checkCredentials
  log : ∀ size, .updateTokenBucket size ∉ c.log

/-- The callbacks that end a connection before the verdict without a charge. -/
def Escapes (c : Connection) (e : Event) (ans : Answers) : Prop :=
  ∃ events, e = .incomingReady events ∧
    (events.dead = true ∧ c.state = .checkCredentials ∨
      events.dead = false ∧ c.state = .initial ∧
        (c.client.readNoWait (initialSize - c.initialPacketsFill) ans.read).1 = none)

theorem Approved.mono (h : Approved c) (hlog : c.log <+: c'.log) : Approved c' := by
  obtain ⟨username, hmem⟩ := h
  exact ⟨username, hlog.subset hmem⟩

theorem Charged.mono (h : Charged c) (hlog : c.log <+: c'.log) : Charged c' := by
  obtain ⟨size, hsize, hmem⟩ := h
  exact ⟨size, hsize, hlog.subset hmem⟩

theorem Free.not_charged (h : Free c) : ¬ Charged c := fun ⟨size, _, hmem⟩ => h.log size hmem

theorem charged_emits (hp : c.perClient.isSome = true) {size : ℕ} (hsize : 2 ≤ size)
    {acts : List Act} (h : ∀ a ∈ c.charge size, a ∈ acts) : Charged (c'.emits acts) := by
  refine ⟨size, hsize, List.mem_append_right _ (h _ ?_)⟩
  unfold charge
  rw [if_pos hp]
  exact List.mem_singleton_self _

/-- A positive verdict is in the log. -/
theorem Judges.approved {username : List UInt8} (h : Judges setup username c true r) :
    Approved r.conn := by
  cases h with
  | accepted hq h =>
      have hjudged : Approved (c.judged username true) :=
        ⟨username, List.mem_append_right _ (List.mem_singleton_self _)⟩
      exact (hjudged.mono (List.prefix_append _ _)).mono h.log_grows

/-- A negative verdict is charged. -/
theorem Judges.charged {username : List UInt8} (h : Judges setup username c false r)
    (hp : c.perClient.isSome = true) : Charged r.conn := by
  cases h with
  | rejected hq ht he =>
      subst he
      exact charged_emits hp (by decide) fun a ha =>
        List.mem_append_left _ (List.mem_cons_of_mem _ ha)

/-! ## Before the verdict -/

/-- The end of the login packets: a check on its way, a verdict, or a charge. -/
theorem Completes.free (h : Completes setup c r) (hfree : ∀ size, .updateTokenBucket size ∉ c.log) :
    r.Satisfies (fun c' => Approved c' ∨ Free c')
      (fun c' => Approved c' ∨ (c.perClient.isSome = true → Charged c')) fun _ _ => True := by
  cases h with
  | malformed hq ht hs he =>
      subst he
      exact .inr fun hp => charged_emits hp (by omega) fun a ha =>
        List.mem_append_left _ (List.mem_cons_of_mem _ ha)
  | throws hw hq ht he =>
      subst he
      exact .inr fun hp => charged_emits hp (by decide) fun a ha => List.mem_append_left _ ha
  | noDatabase hw h =>
      have happroved := h.approved
      cases r with
      | alive c' | destroyed c' => exact .inl happroved
      | crashed why c' => trivial
  | queued hw =>
      refine .inr ⟨.inr rfl, fun size hmem => ?_⟩
      have hlog : c.checking.log = c.log ++ [.state .checkCredentials,
          .checkCredentials (username c.login) (password c.login)] := List.append_assoc ..
      change _ ∈ c.checking.log at hmem
      rw [hlog] at hmem
      rcases List.mem_append.mp hmem with hmem | hmem
      · exact hfree size hmem
      · simp at hmem

/-- A live connection was approved, or is free. -/
theorem Called.free {e : Event} (h : Called setup stock c ans e stock' (.alive c'))
    (hc : Approved c ∨ Free c) : Approved c' ∨ Free c' := by
  rcases hc with hc | hc
  · exact .inl (hc.mono h.log_grows)
  cases h with
  | logsIn hs h =>
      cases h with
      | short => exact .inr ⟨.inl hs, hc.log⟩
      | complete hq heq h => exact h.free hc.log
  | plays hs h | lists hs h | establishes hs h | relays hs hd hdead he h =>
      rcases hc.state with h' | h' <;> cases hs.symm.trans h'
  | @judges _ _ result hj _ h =>
      cases result with
      | true => exact .inl h.approved
      | false => cases h

theorem free_new (remoteHost : List UInt8) (perClient : Option UInt64) :
    Free (new remoteHost perClient) where
  state := .inl rfl
  log := fun size hmem => by
    rcases List.mem_cons.mp hmem with h | h
    · cases h
    · cases List.mem_singleton.mp h

/-! ## The last callback -/

/-- A connection that ends before the verdict was charged, when its last callback comes neither from
the client's socket in `INITIAL` nor from a dead one. -/
theorem Called.charged {e : Event} (h : Called setup stock c ans e stock' (.destroyed c'))
    (hc : Free c) (hp : c.perClient.isSome = true)
    (he : ∀ events, e = .incomingReady events → events.dead = false ∧ c.state = .checkCredentials)
    (hv : ¬ Approved c') : Charged c' := by
  cases h with
  | @dies _ _ _ quiet hq hd =>
      cases hd with
      | initialHangup hdead hs | hangup hdead hs =>
          cases hdead.symm.trans (he _ rfl).1
      | serverHangup hdead hs =>
          rcases hc.state with h | h <;> rcases hs with hs | hs <;> cases hs.symm.trans h
      | timeout => exact charged_emits hp (by decide) fun a ha => ha
      | connectError hs => rcases hc.state with h | h <;> cases hs.symm.trans h
  | logsIn hs h => cases hs.symm.trans (he _ rfl).2
  | plays hs h | lists hs h | establishes hs h | relays hs hd hdead he h =>
      rcases hc.state with h' | h' <;> cases hs.symm.trans h'
  | @judges _ _ result hj _ h =>
      cases result with
      | true => exact (hv h.approved).elim
      | false => exact h.charged hp

/-- In `INITIAL` a connection that can be read from ends without a charge exactly if the read
fails. -/
theorem receiveLoginPackets_charged_iff (hi : Inv setup c) (hs : c.state = .initial) (hc : Free c)
    (hp : c.perClient.isSome = true) (h : c.receiveLoginPackets setup ans = .destroyed c')
    (hv : ¬ Approved c') :
    Charged c' ↔ (c.client.readNoWait (initialSize - c.initialPacketsFill) ans.read).1 ≠ none := by
  have hf := hi.fill hs
  rcases c.client.readNoWait_cases (initialSize - c.initialPacketsFill) ans.read with
    hread | ⟨bytes, rest, hne, hlen, hq, hread⟩
  · unfold receiveLoginPackets at h
    rw [if_neg (not_not.mpr hs), if_neg (not_not.mpr hf), hread] at h
    cases h
    rw [hread]
    exact iff_of_false hc.not_charged fun hne => hne rfl
  · rw [hread]
    refine iff_of_true ?_ nofun
    have hfits : c.initialPacketsFill + bytes.length ≤ initialSize := by omega
    rcases Nat.lt_or_eq_of_le hfits with hlt | heq
    · -- the login is still incomplete, and the connection goes on
      rw [receiveLoginPackets_incomplete hs hf hread hlt] at h
      cases h
    · rw [receiveLoginPackets_complete hs hf hread heq] at h
      have hfill := (initialPacketsFill_filled rest hfits).trans heq
      have hcompletes : Completes setup _ _ := loginComplete_completes ans hfill
      rw [h] at hcompletes
      rcases hcompletes.free hc.log with happroved | hcharged
      · exact (hv happroved).elim
      · exact hcharged hp

theorem dispatch_charged_iff {e : Event} (hi : Inv setup c) (hc : Free c)
    (hp : c.perClient.isSome = true) (h : dispatch setup stock c ans e = some (stock', .destroyed c'))
    (hv : ¬ Approved c') : Charged c' ↔ ¬ Escapes c e ans := by
  have hcalled := dispatch_called hi h
  by_cases hin : ∃ events, e = .incomingReady events
  · obtain ⟨events, rfl⟩ := hin
    simp only [dispatch] at h
    split at h
    · rename_i hd
      have hr := Option.some.inj h
      by_cases hdead : events.dead = true
      · rw [onIncomingReady, if_pos hdead] at hr
        cases hr
        by_cases hs : c.state = .initial
        · rw [if_pos hs, updateTokenBucket_eq] at *
          refine iff_of_true (charged_emits hp (by decide) fun a ha => ha) ?_
          rintro ⟨events', he, ⟨-, hs'⟩ | ⟨hdead', -⟩⟩
          · cases hs.symm.trans hs'
          · cases he
            cases hdead.symm.trans hdead'
        · rw [if_neg hs] at *
          refine iff_of_false hc.not_charged fun hne => hne ⟨events, rfl, .inl ⟨hdead, ?_⟩⟩
          exact hc.state.resolve_left hs
      · have hdead' := (Bool.not_eq_true _).mp hdead
        by_cases hs : c.state = .initial
        · have hread := (hi.incoming_read (fun he => by cases hs.symm.trans he) hd hdead').1
          have hconnect : ¬ c.connect.isSome = true := fun hc' =>
            by cases hs.symm.trans (hi.connect_iff.mp hc')
          rw [onIncomingReady, if_neg hdead, if_neg hconnect, if_pos hs,
            if_neg ((Bool.not_eq_false _).mpr hread)] at hr
          rw [receiveLoginPackets_charged_iff hi hs hc hp (congrArg Prod.snd hr) hv]
          refine not_congr ⟨fun hnone => ⟨events, rfl, .inr ⟨hdead', hs, hnone⟩⟩, ?_⟩
          rintro ⟨events', he, ⟨-, hs'⟩ | ⟨-, -, hnone⟩⟩
          · cases hs.symm.trans hs'
          · exact hnone
        · have hs' := hc.state.resolve_left hs
          refine iff_of_true (hcalled.charged hc hp (fun events' he => ?_) hv) ?_
          · cases he
            exact ⟨hdead', hs'⟩
          · rintro ⟨events', he, ⟨hdead'', -⟩ | ⟨-, hs'', -⟩⟩
            · cases he
              exact hdead hdead''
            · exact hs hs''
    · cases h
  · refine iff_of_true (hcalled.charged hc hp (fun events he => (hin ⟨events, he⟩).elim) hv) ?_
    rintro ⟨events, he, -⟩
    exact hin ⟨events, he⟩

end Connection

namespace Instance

open Connection

variable {setup : Setup} {inst inst' : Instance} {inputs : List Input}

/-- In every run, a live connection was approved or is free. -/
theorem free_run (h : Run setup inputs inst) {id : ℕ} {c : Connection}
    (hc : inst.conns id = .live c) : Approved c ∨ Free c := by
  refine (holds_run (L := fun c => Approved c ∨ Free c) (G := fun _ => True)
    (fun _ _ => .inr (free_new _ _)) ?_ ?_ (fun _ => trivial) h).live hc
  · intro c side bytes hL
    cases side <;> exact hL.imp_right fun hfree => ⟨hfree.state, hfree.log⟩
  · intro stock c ans e stock' r _ _ _ hL hcalled
    cases r with
    | alive c' => exact hcalled.free hL
    | destroyed c' | crashed why c' => trivial

/-- **A failed login is charged, unless it escapes.** -/
theorem failed_login_charged_iff (h : Run setup inputs inst) {id : ℕ} {e : Event} {ans : Answers}
    (hs : step setup inst (.event id e ans) = some inst') {c c' : Connection}
    (hc : inst.conns id = .live c) (hp : c.perClient.isSome = true)
    (hgone : inst'.conns id = .gone c') (hrunning : inst'.crashed = none) (hv : ¬ Approved c') :
    Charged c' ↔ ¬ Escapes c e ans := by
  obtain ⟨hcrashed, hs⟩ := step_cases hs
  have hi := (good_run h).live hc
  cases hs with
  | @event _ _ _ c₀ hc₀ stock r hd =>
      cases hc.symm.trans hc₀
      have hcalled := dispatch_called hi hd
      cases r with
      | alive c₁ =>
          simp [settle, setConn] at hgone
      | destroyed c₁ =>
          simp only [settle, setConn, Function.update_self, Slot.gone.injEq] at hgone
          subst hgone
          have hgrows : c₁.log <+: (c₁.destructor stock).2.log := List.prefix_append _ _
          have hv₁ : ¬ Approved c₁ := fun happroved => hv (happroved.mono hgrows)
          have hfree : Free c := (free_run h hc).resolve_left fun happroved =>
            hv₁ (happroved.mono hcalled.log_grows)
          rw [← dispatch_charged_iff hi hfree hp hd hv₁]
          refine ⟨fun ⟨size, hsize, hmem⟩ => ?_, fun hcharged => hcharged.mono hgrows⟩
          -- the destructor charges nothing
          rcases List.mem_append.mp hmem with hmem | hmem
          · exact ⟨size, hsize, hmem⟩
          · unfold destructorLog at hmem
            split at hmem <;> split at hmem <;> simp at hmem
      | crashed why c₁ => cases hrunning

/-- An accounted client sends its login packets, and the check is queued. -/
def sampleAccounted : List Input :=
  [.accept 0 [] (some 1), .arrive 0 .client samplePackets,
    .event 0 (.incomingReady { read := true }) { read := .upTo 82 }]

/-- A wrong password is charged. -/
theorem failed_login_charged_of_sample :
    ∃ inst inst' c c', Run (sampleSetup []) sampleAccounted inst ∧ inst.conns 0 = .live c ∧
      step (sampleSetup []) inst (.event 0 (.checkDone false) {}) = some inst' ∧
      inst'.conns 0 = .gone c' ∧ Charged c' := by
  obtain ⟨inst, inst', c, c', h, hc, hp, hs, hgone, hrunning, hlog⟩ : ∃ inst inst' c c',
      Run (sampleSetup []) sampleAccounted inst ∧ inst.conns 0 = .live c ∧
        c.perClient.isSome = true ∧
        step (sampleSetup []) inst (.event 0 (.checkDone false) {}) = some inst' ∧
        inst'.conns 0 = .gone c' ∧ inst'.crashed = none ∧
        c'.log = [.metric .clientConnections 1, .metric .clientConnectionsAccepted 1,
          .state .checkCredentials, .checkCredentials [0x61] [0x62],
          .onCheckCredentials [0x61] false, .metric .rejectedLogins 1, .updateTokenBucket 5,
          .send .client accountLoginRejectPacket accountLoginRejectPacket, .shutdownWrite .client,
          .metric .clientConnections (-1), .removeConnection] :=
    ⟨_, _, _, _, rfl, rfl, rfl, rfl, rfl, rfl, rfl⟩
  have hv : ¬ Approved c' := by
    rintro ⟨username, hmem⟩
    rw [hlog] at hmem
    simp at hmem
  refine ⟨inst, inst', c, c', h, hc, hs, hgone, ?_⟩
  rw [failed_login_charged_iff h hs hc hp hgone hrunning hv]
  rintro ⟨events, he, -⟩
  cases he

/-- **A hangup during the check is free**: the client has made the daemon check a password, and its
record is never charged by the connection. -/
theorem hangup_is_free :
    ∃ inst inst' c c', Run (sampleSetup []) sampleAccounted inst ∧ inst.conns 0 = .live c ∧
      c.perClient.isSome = true ∧
      step (sampleSetup []) inst (.event 0 (.incomingReady { readHangup := true }) {}) = some inst' ∧
      inst'.conns 0 = .gone c' ∧ inst'.crashed = none ∧ ¬ Approved c' ∧ ¬ Charged c' := by
  obtain ⟨inst, inst', c, c', h, hc, hp, hs, hgone, hrunning, hlog⟩ : ∃ inst inst' c c',
      Run (sampleSetup []) sampleAccounted inst ∧ inst.conns 0 = .live c ∧
        c.perClient.isSome = true ∧
        step (sampleSetup []) inst (.event 0 (.incomingReady { readHangup := true }) {}) = some inst' ∧
        inst'.conns 0 = .gone c' ∧ inst'.crashed = none ∧
        c'.log = [.metric .clientConnections 1, .metric .clientConnectionsAccepted 1,
          .state .checkCredentials, .checkCredentials [0x61] [0x62],
          .metric .clientConnections (-1), .removeConnection] :=
    ⟨_, _, _, _, rfl, rfl, rfl, rfl, rfl, rfl, rfl⟩
  refine ⟨inst, inst', c, c', h, hc, hp, hs, hgone, hrunning, ?_, ?_⟩
  · rintro ⟨username, hmem⟩
    rw [hlog] at hmem
    simp at hmem
  · rintro ⟨size, -, hmem⟩
    rw [hlog] at hmem
    simp at hmem

end Instance

end UoLogin
