import UoLogin.Login

set_option autoImplicit false

/-!
# Back-pressure in the relay

* **`relay_preconditions`**: in every run, the flags of the two sockets follow the buffers, so that
  `SendTo`, `ReceiveFrom` and the end of a stream only happen when they may (`Act.Sound`).
* **`relay_goes_on`**: in a run without a `Drains` step, each direction of a relay reads from its
  source or waits for its sink. `DoSpliceSend` switches the source off when the sink is full, and
  nothing switches it on again when a later `WRITE` event empties the buffer: `drained_relay_wedges` is
  a run in which both flags of a direction are off, while the source has more to say.
-/

namespace UoLogin

/-! ## The calls of the relay -/

/-- The call that an act reports was allowed. -/
def Act.Sound : Act → Prop
  | .sendTo _ pipe size => pipe = true ∧ 0 < size
  | .receiveFrom _ size => size = 0
  | .received _ result => result ≠ .pipeFull
  | .sourceClosed _ taken delivered => delivered = taken
  | _ => True

section Sessions

variable {setup : Setup} {host packets : List UInt8} {s : State} {sent : Side → List UInt8}
  {t : List Act}

theorem Session.sound (h : Session setup host packets s sent t) : ∀ a ∈ t, a.Sound := by
  induction h with
  | initial => exact nofun
  | check hw => simp [Act.Sound]
  | serverList hl h ih | direct hl h ih | chosen hs h ih | sendPlayServer hl h ih | ready hl h ih
  | played h ih =>
      refine List.forall_mem_append.mpr ⟨ih, ?_⟩
      simp [Act.Sound]
  | sends hz hd ho h ih =>
      refine List.forall_mem_append.mpr ⟨ih, ?_⟩
      simp [Act.Sound, Nat.pos_of_ne_zero hz]
  | receives hr h ih =>
      refine List.forall_mem_append.mpr ⟨ih, ?_⟩
      simp [Act.Sound, hr]

theorem Refusal.sound (h : Refusal t) : ∀ a ∈ t, a.Sound := by
  cases h with
  | skipped => exact nofun
  | sent h => simp [Act.Sound]

theorem Ended.sound (h : Ended setup host packets sent t) : ∀ a ∈ t, a.Sound := by
  cases h with
  | stopped h => exact h.sound
  | malformed h => exact h.sound
  | throws h ht => exact List.forall_mem_append.mpr ⟨h.sound, ht.sound⟩
  | rejected h ht =>
      refine List.forall_mem_append.mpr ⟨h.sound, List.forall_mem_cons.mpr ⟨trivial, ht.sound⟩⟩
  | unlisted hl h | closed h | receiveThrows h =>
      refine List.forall_mem_append.mpr ⟨h.sound, ?_⟩
      simp [Act.Sound]

end Sessions

namespace Connection

variable {setup : Setup} {c c' : Connection} {r : Result}

theorem sound_of_trace (h : ∀ a ∈ c.trace, a.Sound) : ∀ a ∈ c.log, a.Sound := by
  intro a ha
  cases hv : a.visible with
  | true => exact h a (List.mem_filter.mpr ⟨ha, hv⟩)
  | false =>
      cases a with
      | metric _ _ | updateTokenBucket _ | shutdownWrite _ | removeConnection => trivial
      | checkCredentials _ _ | onCheckCredentials _ _ | state _ | connect _ | send _ _ _ | spliced _ _
      | sendTo _ _ _ | receiveFrom _ _ | received _ _ | sourceClosed _ _ _ => cases hv

/-- One direction of a relay: the sink waits for `WRITE` exactly while there is something in the
buffer, and the source is only read while there is nothing. -/
def FlagsFollow (c : Connection) (d : Dir) : Prop :=
  ((c.event d.sink).write = true ↔ (c.splice d).size ≠ 0) ∧
    ((c.event d.source).read = true → (c.splice d).size = 0)

end Connection

namespace Instance

open Connection

variable {setup : Setup} {inst : Instance} {inputs : List Input}

/-- **The preconditions of the relay.** In every run the flags of a relay follow its buffers; every
call of `SendTo` had a pipe with bytes in it, every call of `ReceiveFrom` an empty buffer and no full
pipe as its answer, and a closed source had all its bytes sent on; and none of the assertions about
this has failed. -/
theorem relay_preconditions (h : Run setup inputs inst) :
    (∀ id c, inst.conns id = .live c → c.state = .ready → ∀ d, c.FlagsFollow d) ∧
      (∀ id c, inst.Has id c → ∀ a ∈ c.log, a.Sound) ∧
      ∀ a ∈ [Assertion.sendToPipe, .sendToSize, .receiveFromSize, .incomingPipeFull,
        .outgoingPipeFull], inst.crashed ≠ some (.abort a) := by
  refine ⟨fun id c hc hs d => ?_, fun id c hc => ?_, fun a ha he => ?_⟩
  · have hok := ((good_run h).live hc).relay hs d
    exact ⟨hok.write, hok.read⟩
  · have hh := sessions_run h
    rcases hc with hc | hc
    · exact sound_of_trace (hh.live hc).session.sound
    · exact sound_of_trace (hh.gone hc).sound
  · rcases (good_run h).fatal he with he | ⟨he, -⟩
    · cases he
    · cases he
      exact absurd ha (by decide)

/-- The client sends three bytes, and the game server takes two of them. -/
def sampleBlocked : List Input :=
  [.arrive 0 .client [1, 2, 3], .event 0 (.incomingReady { read := true })
    { receive := .upTo 9, sendReceived := .upTo 1 }]

theorem relay_preconditions_of_sample :
    ∃ inst c, Run (sampleSetup []) (sampleCheck ++ sampleReady ++ sampleBlocked) inst ∧
      inst.conns 0 = .live c ∧ c.outgoing.write = true ∧ c.FlagsFollow .inOut ∧
        ∀ a ∈ c.log, a.Sound := by
  obtain ⟨inst, c, h, hc, hs, hw⟩ : ∃ inst c,
      Run (sampleSetup []) (sampleCheck ++ sampleReady ++ sampleBlocked) inst ∧
        inst.conns 0 = .live c ∧ c.state = .ready ∧ c.outgoing.write = true :=
    ⟨_, _, rfl, rfl, rfl, rfl⟩
  have hrelay := relay_preconditions h
  exact ⟨inst, c, h, hc, hw, hrelay.1 0 c hc hs .inOut, hrelay.2.1 0 c (.inl hc)⟩

end Instance

/-! ## Waiting for the sink -/

namespace Connection

variable {setup : Setup} {c c' : Connection} {r : Result}

/-- Each direction of the relay reads from its source or waits for its sink. -/
def GoesOn (c : Connection) : Prop :=
  ∀ d : Dir, (c.event d.source).read = true ∨ (c.event d.sink).write = true

/-- A `WRITE` event of the relay in which `splice()` takes all that is left in the buffer. -/
def Drains (c : Connection) (e : Event) (ans : Answers) : Prop :=
  ∃ side events n, e = Event.ready side events ∧ c.state = .ready ∧ events.write = true ∧
    events.dead = false ∧ ans.sendReady = .upTo n ∧ (c.splice side.into).size ≤ n + 1

theorem Flushes.goesOn {side : Side} {events : Events} {ans : Answers}
    (h : Flushes c side events ans c') (hs : c.state = .ready) (hdead : events.dead = false)
    (hd : ¬ Drains c (Event.ready side events) ans) (hc : c.GoesOn) : c'.GoesOn := by
  cases h with
  | skipped => exact hc
  | sent hw hz h =>
      intro d
      by_cases he : d = side.into
      · subst he
        rcases h.lane with ⟨-, -, -, n, hch, hn⟩ | ⟨-, hw', -⟩
        · exact (hd ⟨side, events, n, rfl, hs, hw, hdead, hch, hn⟩).elim
        · exact .inr hw'
      · have hlane := h.frame.lane d he
        have hgoes := hc d
        change (c.lane d).read = true ∨ (c.lane d).write = true at hgoes
        rw [← hlane] at hgoes
        exact hgoes

theorem Receives.goesOn {d : Dir} {ch : SpliceChoice} (h : Receives c d ch (.alive c'))
    (hr : (c.lane d).read = true) (hc : c.GoesOn) : c'.GoesOn := by
  intro d'
  by_cases he : d' = d
  · subst he
    rcases h.lane with ⟨hr', -⟩ | ⟨-, hw, -⟩
    · exact .inl (hr'.trans hr)
    · exact .inr hw
  · have hlane := h.frame.lane d' he
    have hgoes := hc d'
    change (c.lane d').read = true ∨ (c.lane d').write = true at hgoes
    rw [← hlane] at hgoes
    exact hgoes

theorem Relays.goesOn {side : Side} {events : Events} {ans : Answers}
    (h : Relays c side events ans (.alive c')) (hs : c.state = .ready)
    (hdisp : (c.event side).dispatches events = true) (hdead : events.dead = false)
    (hd : ¬ Drains c (Event.ready side events) ans) (hc : c.GoesOn) : c'.GoesOn := by
  cases h with
  | sent h => exact h.goesOn hs hdead hd hc
  | received h hr h' =>
      refine h'.goesOn ?_ (h.goesOn hs hdead hd hc)
      rw [h.frame.lane _ side.outOf_ne_into]
      change (c.event side.outOf.source).read = true
      rw [side.source_outOf]
      exact dispatches_read hdisp hr

/-- A relay begins with both sockets being read. -/
theorem Entered.goesOn (h : Entered setup c) (hs : c.state = .ready) : c.GoesOn := by
  have hflags := h.flags
  rw [hs] at hflags
  intro d
  cases d with
  | inOut => exact .inl (congrArg Flags.clientRead hflags)
  | outIn => exact .inl (congrArg Flags.serverRead hflags)

end Connection

namespace Instance

open Connection

variable {setup : Setup} {inst : Instance} {inputs : List Input}

/-- **The relay goes on.** In every run none of whose callbacks drains a buffer in a `WRITE` event,
each direction of every live relay reads from its source or waits for its sink. -/
theorem relay_goes_on
    (hD : Machine.Along (step setup) (Meets fun c e ans => ¬ Drains c e ans) {} inputs)
    (h : Run setup inputs inst) {id : ℕ} {c : Connection} (hc : inst.conns id = .live c)
    (hs : c.state = .ready) : c.GoesOn := by
  refine (holds_along (L := fun c => c.state = .ready → c.GoesOn) (G := fun _ => True) nofun
    (fun {c} side bytes hL hs => ?_) (fun {stock c ans e stock' r} hi _ _ hL hD hr => ?_)
    (fun _ => trivial) hD h).live hc hs
  · cases side <;> exact hL hs
  · rcases hr.enters hi with ⟨side, events, rfl, hs, hdisp, hdead, hr⟩ | hr
    · cases r with
      | alive c' => exact fun _ => hr.goesOn hs hdisp hdead hD (hL hs)
      | destroyed c' => trivial
      | crashed why c' => trivial
    · cases r with
      | alive c' => exact hr.goesOn
      | destroyed c' => trivial
      | crashed why c' => trivial

/-- No callback of the input is a `WRITE` event. -/
def readsOnly : Input → Bool
  | .event _ (.incomingReady events) _ | .event _ (.outgoingReady events) _ => !events.write
  | _ => true

theorem meets_of_readsOnly {input : Input} (h : readsOnly input = true) (inst : Instance) :
    Meets (fun c e ans => ¬ Drains c e ans) inst input := by
  rintro id e ans c rfl - ⟨side, events, n, rfl, -, hw, -⟩
  cases side <;> (simp only [Event.ready, readsOnly, hw] at h; cases h)

theorem relay_goes_on_of_sample :
    ∃ inst c, Run (sampleSetup []) (sampleCheck ++ sampleReady ++ sampleBlocked) inst ∧
      inst.conns 0 = .live c ∧ c.incoming.read = false ∧ c.GoesOn := by
  obtain ⟨inst, c, h, hc, hs, hr⟩ : ∃ inst c,
      Run (sampleSetup []) (sampleCheck ++ sampleReady ++ sampleBlocked) inst ∧
        inst.conns 0 = .live c ∧ c.state = .ready ∧ c.incoming.read = false :=
    ⟨_, _, rfl, rfl, rfl, rfl⟩
  have hreads : ∀ input ∈ sampleCheck ++ sampleReady ++ sampleBlocked, readsOnly input = true :=
    List.all_eq_true.mp rfl
  exact ⟨inst, c, h, hc, hr, relay_goes_on
    (Machine.along_of_forall (fun input hi => meets_of_readsOnly (hreads input hi)) _) h hc hs⟩

/-- The game server takes the third byte, too, and the client has more to say. -/
def sampleDrained : List Input :=
  [.event 0 (.outgoingReady { write := true }) { sendReady := .upTo 9 }, .arrive 0 .client [4]]

/-- Nobody waits for anything any more between the client and the game server, while a byte of the
client is in the queue. -/
theorem drained_relay_wedges :
    ∃ inst c, Run (sampleSetup []) (sampleCheck ++ sampleReady ++ sampleBlocked ++ sampleDrained) inst ∧
      inst.conns 0 = .live c ∧ c.state = .ready ∧ c.client.queue = [4] ∧ ¬ c.GoesOn := by
  obtain ⟨inst, c, h, hc, hs, hq, hr, hw⟩ : ∃ inst c,
      Run (sampleSetup []) (sampleCheck ++ sampleReady ++ sampleBlocked ++ sampleDrained) inst ∧
        inst.conns 0 = .live c ∧ c.state = .ready ∧ c.client.queue = [4] ∧
          c.incoming.read = false ∧ c.outgoing.write = false :=
    ⟨_, _, rfl, rfl, rfl, rfl, rfl, rfl⟩
  refine ⟨inst, c, h, hc, hs, hq, fun hg => ?_⟩
  rcases hg .inOut with he | he
  · exact nomatch hr.symm.trans he
  · exact nomatch hw.symm.trans he

end Instance

end UoLogin
