import UoLogin.Session

set_option autoImplicit false

/-!
# No contact without a verified login

`LoginFirst` is what the log of a connection says about the login: the acts that reach for the game
server (`Act.contact`) come after a positive verdict, which answers the only check of the run, which
was made with the username and the password in the bytes that are forwarded.

* `Session.guarded`, `Session.checks`, `Session.serverSends`: these facts about sessions, by
  induction over the session;
* **`login_before_contact`**: every connection of every run is `LoginFirst`, and the initial packets
  do not change once the check has begun.
-/

namespace UoLogin

/-- The acts that reach for the game server. -/
def Act.contact : Act → Bool
  | .connect _ => true
  | .state .connecting | .state .sendPlayServer | .state .ready => true
  | .send .server _ _ | .spliced .server _ => true
  | _ => false

/-- The check of the credentials and the verdict. -/
def Act.check : Act → Bool
  | .checkCredentials _ _ | .onCheckCredentials _ _ => true
  | _ => false

/-- The buffer that an act passes to `Send` for the game server. -/
def Act.serverSend : Act → Option (List UInt8)
  | .send .server buffer _ => some buffer
  | _ => none

theorem Act.visible_of_contact {a : Act} (h : a.contact = true) : a.visible = true := by
  cases a <;> first | rfl | cases h

theorem Act.visible_of_check {a : Act} (h : a.check = true) : a.visible = true := by
  cases a <;> first | rfl | cases h

theorem Act.serverSend_of_not_visible {a : Act} (h : a.visible = false) : a.serverSend = none := by
  cases a <;> first | rfl | cases h

/-- What the log of a connection says about the login. -/
structure LoginFirst (setup : Setup) (c : Connection) : Prop where
  /-- the game server is only contacted after a positive verdict, which answers a check of the
  credentials in the buffer -/
  contact : ∀ pre a post, c.log = pre ++ a :: post → a.contact = true →
    ∃ before after,
      pre = before ++ .onCheckCredentials (credentials c.initialPackets.bytes).1 true :: after ∧
      .checkCredentials (credentials c.initialPackets.bytes).1
        (credentials c.initialPackets.bytes).2 ∈ before
  /-- there is no other check and no other verdict -/
  checks : ∃ result, c.log.filter Act.check <+:
    [.checkCredentials (credentials c.initialPackets.bytes).1 (credentials c.initialPackets.bytes).2,
      .onCheckCredentials (credentials c.initialPackets.bytes).1 result]
  /-- the same buffer is sent to the game server, before anything else -/
  sends : c.log.filterMap Act.serverSend <+:
    [initialPacketsVector setup.config c.remoteHost c.initialPackets.bytes, playServerPacket]
  /-- what is checked is well formed -/
  wellFormed : ∀ username password, .checkCredentials username password ∈ c.log →
    c.initialPackets.bytes.head? = some 0xef ∧ (c.initialPackets.bytes.drop 21).head? = some 0x80 ∧
      username ≠ [] ∧ username.length ≤ 30 ∧ ∀ ch ∈ username, 0x20 ≤ ch ∧ ch < 0x80

/-! ## Sessions -/

section Sessions

variable {setup : Setup} {host packets : List UInt8} {s : State} {sent : Side → List UInt8}
  {t : List Act}

/-- The acts before the verdict. -/
def opening (packets : List UInt8) : List Act :=
  [.state .checkCredentials, .checkCredentials (credentials packets).1 (credentials packets).2]

theorem contact_opening : ∀ a ∈ opening packets, a.contact = false := by
  intro a ha
  rcases List.mem_cons.mp ha with rfl | ha
  · rfl
  · rw [List.mem_singleton.mp ha]
    rfl

/-- How the trace of a state begins. -/
def Opens (setup : Setup) (packets : List UInt8) (t : List Act) : State → Prop
  | .initial => t = []
  | .checkCredentials => Connection.WellFormed setup.util packets ∧ t = opening packets
  | _ => Connection.WellFormed setup.util packets ∧
      ∃ rest, t = opening packets ++ .onCheckCredentials (credentials packets).1 true :: rest

theorem Session.opens (h : Session setup host packets s sent t) : Opens setup packets t s := by
  have hmore : ∀ {t : List Act} (more : List Act), Connection.WellFormed setup.util packets ∧
      (∃ rest, t = opening packets ++ .onCheckCredentials (credentials packets).1 true :: rest) →
      Connection.WellFormed setup.util packets ∧
        ∃ rest, t ++ more = opening packets ++ .onCheckCredentials (credentials packets).1 true :: rest := by
    rintro t more ⟨hw, rest, ht⟩
    refine ⟨hw, rest ++ more, ?_⟩
    rw [ht, List.append_assoc]
    rfl
  induction h with
  | initial => rfl
  | check hw => exact ⟨hw, rfl⟩
  | serverList hl h ih => exact ⟨ih.1, _, by rw [ih.2]⟩
  | direct hl h ih => exact ⟨ih.1, _, by rw [ih.2]⟩
  | chosen hs h ih => exact hmore _ ih
  | sendPlayServer hl h ih => exact hmore _ ih
  | ready hl h ih => exact hmore _ ih
  | played h ih => exact hmore _ ih
  | sends hz hd ho h ih => exact hmore _ ih
  | receives hr h ih => exact hmore _ ih

/-- The verdict is in front of a contact. -/
def Guarded (packets : List UInt8) (t : List Act) : Prop :=
  ∀ pre a post, t = pre ++ a :: post → a.contact = true →
    ∃ mid, pre = opening packets ++ .onCheckCredentials (credentials packets).1 true :: mid

theorem guarded_of_forall (h : ∀ a ∈ t, a.contact = false) : Guarded packets t := by
  intro pre a post ht ha
  rw [h a (ht ▸ List.mem_append_right _ List.mem_cons_self)] at ha
  cases ha

theorem guarded_of_verdict (rest : List Act) :
    Guarded packets (opening packets ++ .onCheckCredentials (credentials packets).1 true :: rest) := by
  intro pre a post ht ha
  -- the first three acts are no contacts
  cases pre with
  | nil =>
      cases ht
      cases ha
  | cons x pre =>
      cases pre with
      | nil =>
          cases ht
          cases ha
      | cons y pre =>
          cases pre with
          | nil =>
              cases ht
              cases ha
          | cons z pre =>
              cases ht
              exact ⟨pre, rfl⟩

theorem Session.guarded (h : Session setup host packets s sent t) : Guarded packets t := by
  have ho := h.opens
  cases s with
  | initial =>
      rw [show t = [] from ho]
      exact guarded_of_forall nofun
  | checkCredentials =>
      rw [ho.2]
      exact guarded_of_forall contact_opening
  | serverList | connecting | sendPlayServer | ready =>
      obtain ⟨-, rest, ht⟩ := ho
      rw [ht]
      exact guarded_of_verdict rest

/-- The checks and verdicts of a state. -/
def checksIn (packets : List UInt8) : State → List Act
  | .initial => []
  | .checkCredentials => [.checkCredentials (credentials packets).1 (credentials packets).2]
  | _ => [.checkCredentials (credentials packets).1 (credentials packets).2,
      .onCheckCredentials (credentials packets).1 true]

theorem Session.checks (h : Session setup host packets s sent t) :
    t.filter Act.check = checksIn packets s := by
  induction h with
  | initial => rfl
  | check hw => rfl
  | serverList hl h ih | direct hl h ih | chosen hs h ih | sendPlayServer hl h ih | ready hl h ih
  | played h ih | sends hz hd ho h ih | receives hr h ih =>
      rw [List.filter_append, ih]
      rfl

/-- The buffers sent to the game server in a state. -/
def serverSendsIn (setup : Setup) (host packets : List UInt8) : State → List (List UInt8)
  | .sendPlayServer => [initialPacketsVector setup.config host packets]
  | .ready => initialPacketsVector setup.config host packets ::
      if setup.config.listed then [playServerPacket] else []
  | _ => []

theorem Session.serverSends (h : Session setup host packets s sent t) :
    t.filterMap Act.serverSend = serverSendsIn setup host packets s := by
  induction h with
  | initial => rfl
  | check hw => rfl
  | serverList hl h ih | direct hl h ih | chosen hs h ih | sendPlayServer hl h ih =>
      rw [List.filterMap_append, ih]
      rfl
  | ready hl h ih =>
      rw [List.filterMap_append, ih]
      simp only [serverSendsIn, Config.listed_eq_false hl]
      rfl
  | played h ih =>
      rw [List.filterMap_append, ih]
      simp only [serverSendsIn, h.listed]
      rfl
  | sends hz hd ho h ih | receives hr h ih =>
      rw [List.filterMap_append, ih]
      exact List.append_nil _

/-- `LoginFirst`, for a trace. -/
structure TraceLogin (setup : Setup) (host packets : List UInt8) (t : List Act) : Prop where
  guarded : Guarded packets t
  checks : ∃ result, t.filter Act.check <+:
    [.checkCredentials (credentials packets).1 (credentials packets).2,
      .onCheckCredentials (credentials packets).1 result]
  sends : t.filterMap Act.serverSend <+:
    [initialPacketsVector setup.config host packets, playServerPacket]
  wellFormed : t.filter Act.check ≠ [] → Connection.WellFormed setup.util packets

theorem Session.traceLogin (h : Session setup host packets s sent t) :
    TraceLogin setup host packets t where
  guarded := h.guarded
  checks := by
    refine ⟨true, ?_⟩
    rw [h.checks]
    cases s with
    | initial => exact List.nil_prefix
    | checkCredentials => exact ⟨[_], rfl⟩
    | serverList | connecting | sendPlayServer | ready => exact List.prefix_rfl
  sends := by
    rw [h.serverSends]
    cases s with
    | initial | checkCredentials | serverList | connecting => exact List.nil_prefix
    | sendPlayServer => exact ⟨[_], rfl⟩
    | ready =>
        change _ :: (if setup.config.listed = true then _ else _) <+: _
        split
        · exact List.prefix_rfl
        · exact ⟨[_], rfl⟩
  wellFormed := by
    intro hne
    rw [h.checks] at hne
    have ho := h.opens
    cases s with
    | initial => exact (hne rfl).elim
    | checkCredentials | serverList | connecting | sendPlayServer | ready => exact ho.1

theorem Refusal.facts (h : Refusal t) : (∀ a ∈ t, a.contact = false) ∧ t.filter Act.check = [] ∧
    t.filterMap Act.serverSend = [] := by
  cases h with
  | skipped => exact ⟨nofun, rfl, rfl⟩
  | sent h => exact ⟨by simp [Act.contact], rfl, rfl⟩

/-- A session that ended with the verdict has its opening and what follows the verdict. -/
theorem TraceLogin.of_opening {tail : List Act} (h : Session setup host packets .checkCredentials sent t)
    (hg : Guarded packets (t ++ tail)) (hs : tail.filterMap Act.serverSend = [])
    (hc : ∃ result, tail.filter Act.check <+: [.onCheckCredentials (credentials packets).1 result]) :
    TraceLogin setup host packets (t ++ tail) where
  guarded := hg
  checks := by
    obtain ⟨result, hc⟩ := hc
    refine ⟨result, ?_⟩
    rw [List.filter_append, h.checks]
    exact (List.prefix_cons_inj _).mpr hc
  sends := by
    rw [List.filterMap_append, h.serverSends, hs]
    exact List.nil_prefix
  wellFormed := fun _ => h.opens.1

/-- An act inside the relay says nothing about the login. -/
theorem TraceLogin.snoc {a : Act} (h : TraceLogin setup host packets t) (hcontact : a.contact = false)
    (hcheck : a.check = false) (hsend : a.serverSend = none) :
    TraceLogin setup host packets (t ++ [a]) := by
  have hchecks : (t ++ [a]).filter Act.check = t.filter Act.check := by
    rw [List.filter_append, List.filter_cons_of_neg (by rw [hcheck]; exact Bool.false_ne_true)]
    exact List.append_nil _
  refine ⟨fun pre b post ht hb => ?_, ?_, ?_, ?_⟩
  · rcases List.eq_nil_or_concat post with rfl | ⟨post', x, rfl⟩
    · cases (List.append_inj' ht rfl).2
      exact nomatch hcontact.symm.trans hb
    · have ht' : t ++ [a] = (pre ++ b :: post') ++ [x] := by
        rw [ht, List.concat_eq_append, List.append_assoc, List.cons_append]
      exact h.guarded pre b post' (List.append_inj' ht' rfl).1 hb
  · rw [hchecks]
    exact h.checks
  · rw [List.filterMap_append, List.filterMap_cons_none hsend]
    exact (List.append_nil _).symm ▸ h.sends
  · rw [hchecks]
    exact h.wellFormed

theorem Ended.traceLogin (h : Ended setup host packets sent t) : TraceLogin setup host packets t := by
  cases h with
  | stopped h => exact h.traceLogin
  | malformed h =>
      obtain ⟨hcontact, hchecks, hsends⟩ := h.facts
      refine ⟨guarded_of_forall hcontact, ⟨true, ?_⟩, ?_, fun hne => (hne hchecks).elim⟩
      · rw [hchecks]
        exact List.nil_prefix
      · rw [hsends]
        exact List.nil_prefix
  | @throws t tail h ht =>
      obtain ⟨hcontact, hchecks, hsends⟩ := ht.facts
      refine .of_opening h (guarded_of_forall fun a ha => ?_) hsends ⟨true, ?_⟩
      · rw [h.opens.2] at ha
        rcases List.mem_append.mp ha with ha | ha
        · exact contact_opening a ha
        · exact hcontact a ha
      · rw [hchecks]
        exact List.nil_prefix
  | @rejected t tail h ht =>
      obtain ⟨hcontact, hchecks, hsends⟩ := ht.facts
      refine .of_opening h (guarded_of_forall fun a ha => ?_) hsends ⟨false, ?_⟩
      · rw [h.opens.2] at ha
        rcases List.mem_append.mp ha with ha | ha
        · exact contact_opening a ha
        · rcases List.mem_cons.mp ha with rfl | ha
          · rfl
          · exact hcontact a ha
      · rewrite [List.filter_cons_of_pos rfl, hchecks]
        exact List.prefix_rfl
  | @unlisted hl t h =>
      refine .of_opening h ?_ rfl ⟨true, List.prefix_rfl⟩
      rw [h.opens.2]
      exact guarded_of_verdict []
  | closed h => exact h.traceLogin.snoc rfl rfl rfl
  | receiveThrows h => exact h.traceLogin.snoc rfl rfl rfl

end Sessions

/-! ## Connections -/

namespace Connection

variable {setup : Setup} {c : Connection}

theorem filter_check_trace (c : Connection) : c.trace.filter Act.check = c.log.filter Act.check := by
  unfold trace
  rw [List.filter_filter]
  refine List.filter_congr fun a _ => ?_
  cases hc : a.check with
  | false => rfl
  | true => rw [Act.visible_of_check hc]; rfl

theorem serverSend_trace (c : Connection) :
    c.trace.filterMap Act.serverSend = c.log.filterMap Act.serverSend := by
  unfold trace
  rw [List.filterMap_filter]
  refine List.filterMap_congr fun a _ => ?_
  cases hv : a.visible with
  | false => exact (Act.serverSend_of_not_visible hv).symm
  | true => rfl

theorem loginFirst_of_trace (h : TraceLogin setup c.remoteHost c.initialPackets.bytes c.trace) :
    LoginFirst setup c where
  contact := by
    intro pre a post hlog ha
    have ht : c.trace = pre.filter Act.visible ++ a :: post.filter Act.visible := by
      unfold trace
      rw [hlog, List.filter_append, List.filter_cons_of_pos (Act.visible_of_contact ha)]
    obtain ⟨mid, hmid⟩ := h.guarded _ a _ ht ha
    obtain ⟨before, rest, hpre, hbefore, hrest⟩ := List.filter_eq_append_iff.mp hmid
    obtain ⟨skipped, after, hrest, -, -, -⟩ := List.filter_eq_cons_iff.mp hrest
    refine ⟨before ++ skipped, after, ?_, List.mem_append_left _ ?_⟩
    · rw [hpre, hrest, List.append_assoc]
    · have hmem : .checkCredentials (credentials c.initialPackets.bytes).1
          (credentials c.initialPackets.bytes).2 ∈ before.filter Act.visible := by
        rw [hbefore]
        exact List.mem_cons_of_mem _ List.mem_cons_self
      exact (List.mem_filter.mp hmem).1
  checks := filter_check_trace c ▸ h.checks
  sends := serverSend_trace c ▸ h.sends
  wellFormed := by
    intro username password hmem
    have hcheck : .checkCredentials username password ∈ c.trace.filter Act.check := by
      rw [filter_check_trace]
      exact List.mem_filter.mpr ⟨hmem, rfl⟩
    have hw := h.wellFormed (List.ne_nil_of_mem hcheck)
    obtain ⟨result, hchecks⟩ := h.checks
    have hu : username = (credentials c.initialPackets.bytes).1 := by
      have := hchecks.subset hcheck
      simp only [List.mem_cons, Act.checkCredentials.injEq, List.not_mem_nil, reduceCtorEq,
        or_false] at this
      exact this.1
    subst hu
    obtain ⟨hne, hprintable⟩ := Bool.and_eq_true_iff.mp hw.username
    refine ⟨?_, eq_of_beq hw.accountLogin, ?_, length_username_le _, fun ch hch => ?_⟩
    · have hseed := eq_of_beq hw.seed
      rwa [List.head?_take, if_neg (by decide)] at hseed
    · intro he
      change (!(credentials c.initialPackets.bytes).1.isEmpty) = true at hne
      rw [he] at hne
      cases hne
    · exact setup.util.printable_ascii ch (List.all_eq_true.mp hprintable ch hch)

/-- Once the login packets are complete, no callback touches them. -/
theorem Called.packets {stock stock' : PipeStock UInt8} {ans : Answers} {e : Event} {r : Result}
    (h : Called setup stock c ans e stock' r) (hs : c.state ≠ .initial) :
    r.conn.initialPackets = c.initialPackets ∧ r.conn.initialPacketsFill = c.initialPacketsFill := by
  have hkept : ∀ {c' : Connection}, c'.kept = c.kept →
      c'.initialPackets = c.initialPackets ∧ c'.initialPacketsFill = c.initialPacketsFill :=
    fun hk => ⟨congrArg Kept.initialPackets hk, congrArg Kept.fill hk⟩
  cases h with
  | dies => exact ⟨rfl, rfl⟩
  | connectPending => exact ⟨rfl, rfl⟩
  | logsIn hi h => exact (hs hi).elim
  | plays _ h => exact hkept h.kept
  | lists _ h => exact hkept h.kept
  | relays _ hd _ he h => exact ⟨congrArg Core.initialPackets h.core, congrArg Core.fill h.core⟩
  | establishes _ h => exact hkept h.kept
  | judges _ hj h => exact hkept h.kept

end Connection

namespace Instance

open Connection

variable {setup : Setup} {inst inst₀ : Instance} {id : ℕ} {c c₀ : Connection}

/-- The connection of a slot has `packets` in a full buffer, or had. -/
def Keeps (packets : InitialPackets) : Slot → Prop
  | .vacant => False
  | .live c => c.initialPackets = packets ∧ c.initialPacketsFill = initialSize
  | .gone c => c.initialPackets = packets

/-- The connection `id` has `packets` in a full buffer, or had. -/
def Packets (packets : InitialPackets) (id : ℕ) (inst : Instance) : Prop :=
  Keeps packets (inst.conns id)

/-- The other connections' inputs leave this one alone. -/
theorem packets_setConn {packets : InitialPackets} {stock : PipeStock UInt8} {j : ℕ} {slot : Slot}
    (h : Packets packets id inst) (hslot : j = id → Keeps packets slot) :
    Packets packets id (inst.setConn stock j slot) := by
  change Keeps packets (Function.update inst.conns j slot id)
  by_cases hj : id = j
  · subst hj
    rw [Function.update_self]
    exact hslot rfl
  · rw [Function.update_of_ne hj]
    exact h

theorem packets_step {packets : InitialPackets} {input : Input} {inst' : Instance}
    (hg : Good setup inst) (hp : Packets packets id inst) (hs : step setup inst input = some inst') :
    Packets packets id inst' := by
  obtain ⟨-, hs⟩ := step_cases hs
  have hslot : Keeps packets (inst.conns id) := hp
  cases hs with
  | accept hc =>
      refine packets_setConn hp fun hj => ?_
      subst hj
      rw [hc] at hslot
      exact hslot.elim
  | @arrive j side bytes c hc =>
      refine packets_setConn hp fun hj => ?_
      subst hj
      rw [hc] at hslot
      cases side <;> exact hslot
  | @event j e ans c hc stock r hd =>
      have hcalled : j = id → r.conn.initialPackets = packets ∧
          r.conn.initialPacketsFill = initialSize := by
        intro hj
        subst hj
        rw [hc] at hslot
        have hi := hg.live hc
        have hstate : c.state ≠ .initial := fun he =>
          Nat.lt_irrefl initialSize (hslot.2 ▸ hi.fill he)
        obtain ⟨hpackets, hfill⟩ := (dispatch_called hi hd).packets hstate
        exact ⟨hpackets.trans hslot.1, hfill.trans hslot.2⟩
      cases r with
      | alive c' => exact packets_setConn hp hcalled
      | destroyed c' => exact packets_setConn hp fun hj => (hcalled hj).1
      | crashed why c' =>
          have h : Packets packets id (inst.setConn stock j (.gone c')) :=
            packets_setConn hp fun hj => (hcalled hj).1
          exact h
  | discard => exact hp

/-- **The bytes that are checked do not change any more.** -/
theorem packets_run (hg : Good setup inst₀) (hc₀ : inst₀.conns id = .live c₀)
    (hs : c₀.state ≠ .initial) {rest : List Input}
    (h : Machine.run (step setup) inst₀ rest = some inst) (hc : inst.Has id c) :
    c.initialPackets = c₀.initialPackets := by
  have hp₀ : Packets c₀.initialPackets id inst₀ := by
    unfold Packets
    rw [hc₀]
    exact ⟨rfl, (hg.live hc₀).full hs⟩
  have hp : Packets c₀.initialPackets id inst :=
    (Machine.invariant (I := fun inst => Good setup inst ∧ Packets c₀.initialPackets id inst)
      (fun _ _ _ hI hs => ⟨good_step hI.1 hs, packets_step hI.1 hI.2 hs⟩) ⟨hg, hp₀⟩ h).2
  unfold Packets at hp
  rcases hc with hc | hc
  · rw [hc] at hp
    exact hp.1
  · rw [hc] at hp
    exact hp

theorem loginFirst_run {inputs : List Input} (h : Run setup inputs inst) (hc : inst.Has id c) :
    LoginFirst setup c := by
  have hh := sessions_run h
  rcases hc with hc | hc
  · exact loginFirst_of_trace (hh.live hc).session.traceLogin
  · exact loginFirst_of_trace (hh.gone hc).traceLogin

/-- **No contact without a verified login.** In every run, for every connection: the game server is
contacted only after a positive verdict on the only check, made with the credentials in the buffer
that is forwarded; and that buffer has not changed since any earlier moment after the login packets
were complete. -/
theorem login_before_contact {earlier rest : List Input}
    (h₀ : Run setup earlier inst₀) (h : Run setup (earlier ++ rest) inst) (hc : inst.Has id c) :
    LoginFirst setup c ∧
      ∀ c₀, inst₀.conns id = .live c₀ → c₀.state ≠ .initial → c.initialPackets = c₀.initialPackets := by
  refine ⟨loginFirst_run h hc, fun c₀ hc₀ hs => ?_⟩
  have hrun := h
  unfold Run at hrun
  rw [Machine.run_append, show Machine.run (step setup) {} earlier = some inst₀ from h₀] at hrun
  exact packets_run (good_run h₀) hc₀ hs hrun hc

theorem login_before_contact_of_sample :
    ∃ inst₀ inst c₀ c, Run (sampleSetup []) sampleCheck inst₀ ∧
      Run (sampleSetup []) (sampleCheck ++ sampleReady) inst ∧ inst₀.conns 0 = .live c₀ ∧
      c₀.state = .checkCredentials ∧ inst.conns 0 = .live c ∧ c.state = .ready ∧
      LoginFirst (sampleSetup []) c ∧ c.initialPackets = c₀.initialPackets := by
  obtain ⟨inst₀, c₀, h₀, hc₀, hs₀⟩ : ∃ inst c, Run (sampleSetup []) sampleCheck inst ∧
      inst.conns 0 = .live c ∧ c.state = .checkCredentials := ⟨_, _, rfl, rfl, rfl⟩
  obtain ⟨inst, c, h, hc, hs⟩ : ∃ inst c, Run (sampleSetup []) (sampleCheck ++ sampleReady) inst ∧
      inst.conns 0 = .live c ∧ c.state = .ready := ⟨_, _, rfl, rfl, rfl⟩
  have hlogin := login_before_contact h₀ h (.inl hc)
  exact ⟨inst₀, inst, c₀, c, h₀, h, hc₀, hs₀, hc, hs, hlogin.1,
    hlogin.2 c₀ hc₀ (by rw [hs₀]; decide)⟩

end Instance

end UoLogin
