import UoLogin.Connection.Relay

set_option autoImplicit false

/-!
# What a connection holds in each state

The timer, the pending check, the pending connect, the outgoing socket and the mode flag of a
connection are functions of its state and of the configuration (`resourcesIn`), and so are the
scheduled socket flags before `READY` (`flagsIn`). In `READY` the flags follow the two buffers
(`Lane.Ok`).

* `Inv`: the invariant of a live connection, between two event handlers;
* `Entered`: what a handler leaves that moves the connection to another state;
* `Relays.keeps`: what the relay leaves is in the invariant again.
-/

namespace UoLogin

/-- A statement about the three ways in which a handler ends. -/
def Result.Satisfies (A D : Connection → Prop) (X : Stop → Connection → Prop) : Result → Prop
  | .alive c => A c
  | .destroyed c => D c
  | .crashed why c => X why c

/-- What a connection holds, apart from the fill level and the scheduled flags. -/
structure Resources where
  timer : Bool := false
  cancel : Bool := false
  job : Bool := false
  connect : Bool := false
  outgoing : Bool := false
  play : Bool := false
  incoming : Bool := true
  deriving DecidableEq

/-- The scheduled `READ` and `WRITE` flags of the two sockets. -/
structure Flags where
  clientRead : Bool := false
  clientWrite : Bool := false
  serverRead : Bool := false
  serverWrite : Bool := false
  deriving DecidableEq

/-- The resources of a state, with or without a server list. -/
def resourcesIn (listed : Bool) : State → Resources
  | .initial => { timer := true }
  | .checkCredentials => { cancel := true, job := true }
  | .serverList => { timer := true }
  | .connecting => { connect := true, play := listed }
  | .sendPlayServer => { outgoing := true, play := listed }
  | .ready => { outgoing := true, play := listed }

/-- The flags of a state; in `READY` those it begins with. -/
def flagsIn (listed : Bool) : State → Flags
  | .initial => { clientRead := true }
  | .checkCredentials => {}
  | .serverList => { clientRead := true }
  | .connecting => { clientRead := !listed }
  | .sendPlayServer => { serverRead := true }
  | .ready => { clientRead := true, serverRead := true }

/-- A direction of the relay: the sink waits for `WRITE` as long as there are bytes in the buffer,
and meanwhile nothing is read from the source. -/
structure Lane.Ok (l : Lane) : Prop where
  write : l.write = true ↔ l.splice.size ≠ 0
  read : l.read = true → l.splice.size = 0
  pipe : l.splice.size ≠ 0 → l.splice.pipe.isSome

theorem Lane.ok_of_empty {l : Lane} (hw : l.write = false) (hz : l.splice.size = 0) : l.Ok where
  write := ⟨fun h => (Bool.false_ne_true (hw.symm.trans h)).elim, fun h => (h hz).elim⟩
  read := fun _ => hz
  pipe := fun h => (h hz).elim

theorem Lane.ok_of_waiting {l : Lane} (hr : l.read = false) (hw : l.write = true)
    (hz : l.splice.size ≠ 0) (hp : l.splice.pipe.isSome) : l.Ok where
  write := ⟨fun _ => hz, fun _ => hw⟩
  read := fun h => (Bool.false_ne_true (hr.symm.trans h)).elim
  pipe := fun _ => hp

namespace Connection

variable {setup : Setup} {c c' : Connection} {r : Result} {d : Dir}

def resources (c : Connection) : Resources where
  timer := c.timeout.isSome
  cancel := c.cancelPtr
  job := c.job.isSome
  connect := c.connect.isSome
  outgoing := c.outgoing.defined
  play := c.sendPlayServer
  incoming := c.incoming.defined

def flags (c : Connection) : Flags where
  clientRead := c.incoming.read
  clientWrite := c.incoming.write
  serverRead := c.outgoing.read
  serverWrite := c.outgoing.write

/-- **The invariant of a live connection.** -/
structure Inv (setup : Setup) (c : Connection) : Prop where
  resources : c.resources = resourcesIn setup.config.listed c.state
  mode : c.state = .serverList ∨ c.state = .sendPlayServer → setup.config.serverList ≠ []
  fill : c.state = .initial → c.initialPacketsFill < initialSize
  full : c.state ≠ .initial → c.initialPacketsFill = initialSize
  flags : c.state ≠ .ready → c.flags = flagsIn setup.config.listed c.state
  fresh : c.state ≠ .ready → ∀ d, c.splice d = {}
  relay : c.state = .ready → ∀ d, (c.lane d).Ok

/-- A connection with full login packets and unused splices, in the middle of a handler. -/
structure Holds (res : Resources) (flags : Flags) (c : Connection) : Prop where
  resources : c.resources = res
  flags : c.flags = flags
  full : c.initialPacketsFill = initialSize
  fresh : ∀ d, c.splice d = {}

/-- The flags that `READY` begins with are right for two unused splices. -/
theorem lane_ok_of_fresh {listed : Bool} (hf : c.flags = flagsIn listed .ready)
    (hs : ∀ d, c.splice d = {}) (d : Dir) : (c.lane d).Ok := by
  refine Lane.ok_of_empty ?_ (congrArg Splice.size (hs d))
  cases d with
  | inOut => exact congrArg Flags.serverWrite hf
  | outIn => exact congrArg Flags.clientWrite hf

/-- The connection is in its invariant, with the flags that its state begins with. -/
structure Entered (setup : Setup) (c : Connection) : Prop where
  inv : Inv setup c
  flags : c.flags = flagsIn setup.config.listed c.state

/-- A handler that leaves what the new state asks for leaves the invariant. -/
theorem Holds.entered {s : State}
    (h : c.Holds (resourcesIn setup.config.listed s) (flagsIn setup.config.listed s))
    (hc : c.state = s) (hs : s ≠ .initial)
    (hm : s = .serverList ∨ s = .sendPlayServer → setup.config.serverList ≠ []) :
    Entered setup c := by
  subst hc
  refine ⟨⟨h.resources, hm, fun hi => (hs hi).elim, fun _ => h.full, fun _ => h.flags,
    fun _ => h.fresh, fun hr d => ?_⟩, h.flags⟩
  have hf := h.flags
  rw [hr] at hf
  exact lane_ok_of_fresh hf h.fresh d

theorem Inv.holds (h : Inv setup c) {s : State} (hs : c.state = s) (hi : s ≠ .initial)
    (hr : s ≠ .ready) : c.Holds (resourcesIn setup.config.listed s) (flagsIn setup.config.listed s) := by
  subst hs
  exact ⟨h.resources, h.flags hr, h.full hi, h.fresh hr⟩

/-- The results of the handlers up to the connect, which only enter `READY` without a server
list. -/
abbrev Enters (setup : Setup) : Result → Prop :=
  Result.Satisfies (fun c => Entered setup c ∧ (c.state = .ready → c.sendPlayServer = false))
    (fun _ => True) fun _ _ => False

/-- The results of the relay. -/
abbrev Keeps (setup : Setup) : Result → Prop :=
  Result.Satisfies (Inv setup) (fun _ => True) fun why _ => why = .throws

/-! ## Connecting -/

theorem splice_of_fields {c c' : Connection} (h : ∀ d, c.splice d = {})
    (hi : c'.spliceInOut = c.spliceInOut) (ho : c'.spliceOutIn = c.spliceOutIn) (d : Dir) :
    c'.splice d = {} := by
  cases d with
  | inOut => exact hi.trans (h .inOut)
  | outIn => exact ho.trans (h .outIn)

theorem Establishes.enters (h : Establishes setup c r)
    (hc : c.Holds { play := setup.config.listed } (flagsIn setup.config.listed .connecting)) :
    Enters setup r := by
  cases h with
  | failed => trivial
  | @sendPlayServer bytes hb hp =>
      have hl : setup.config.listed = true := (congrArg Resources.play hc.resources).symm.trans hp
      refine ⟨Holds.entered ⟨?_, ?_, hc.full, splice_of_fields hc.fresh rfl rfl⟩ rfl (nomatch ·) ?_,
        nofun⟩
      · change { c.resources with outgoing := true } = _
        rw [hc.resources]
        rfl
      · change { c.flags with serverRead := true, serverWrite := false } = _
        rw [hc.flags, hl]
        rfl
      · intro _ he
        rw [Config.listed_eq_false he] at hl
        cases hl
  | @ready bytes hb hp =>
      have hl : setup.config.listed = false := (congrArg Resources.play hc.resources).symm.trans hp
      refine ⟨Holds.entered ⟨?_, ?_, hc.full, splice_of_fields hc.fresh rfl rfl⟩ rfl (nomatch ·) ?_,
        fun _ => hp⟩
      · change { c.resources with outgoing := true } = _
        rw [hc.resources]
        rfl
      · change { c.flags with clientRead := true, serverRead := true, serverWrite := false } = _
        rw [hc.flags, hl]
        rfl
      · rintro (he | he) <;> cases he

theorem Connects.enters {address : SocketAddress} (h : Connects setup address c r)
    (hs : c.state = .connecting)
    (hc : c.Holds { play := setup.config.listed } (flagsIn setup.config.listed .connecting)) :
    Enters setup r := by
  cases h with
  | pending =>
      refine ⟨Holds.entered ⟨?_, hc.flags, hc.full, splice_of_fields hc.fresh rfl rfl⟩ hs (nomatch ·)
        ?_, fun hr => nomatch hs.symm.trans hr⟩
      · change { c.resources with connect := true } = _
        rw [hc.resources]
        rfl
      · rintro (he | he) <;> cases he
  | failed => trivial
  | now h => exact h.enters ⟨hc.resources, hc.flags, hc.full, splice_of_fields hc.fresh rfl rfl⟩

/-! ## The login -/

theorem Accepts.enters (h : Accepts setup c r) (hc : c.Holds {} {}) : Enters setup r := by
  cases h with
  | failed hl => trivial
  | listed hl =>
      refine ⟨Holds.entered ⟨?_, ?_, hc.full, splice_of_fields hc.fresh rfl rfl⟩ rfl (nomatch ·)
        fun _ => hl, nofun⟩
      · change { c.resources with timer := true } = _
        rw [hc.resources]
        rfl
      · change { c.flags with clientRead := true } = _
        rw [hc.flags]
        rfl
  | direct hl h =>
      refine h.enters rfl ⟨?_, ?_, hc.full, splice_of_fields hc.fresh rfl rfl⟩
      · rw [Config.listed_eq_false hl]
        exact hc.resources
      · change { c.flags with clientRead := true } = _
        rw [hc.flags, Config.listed_eq_false hl]
        rfl

theorem Judges.enters {username : List UInt8} {result : Bool} (h : Judges setup username c result r)
    {cancel : Bool} (hc : c.Holds { cancel := cancel } {}) : Enters setup r := by
  cases h with
  | rejected hq ht => trivial
  | accepted hq h =>
      refine h.enters ⟨?_, hc.flags, hc.full, splice_of_fields hc.fresh rfl rfl⟩
      change { c.resources with cancel := false } = _
      rw [hc.resources]

theorem Completes.enters (h : Completes setup c r)
    (hc : c.Holds { timer := true } { clientRead := true }) : Enters setup r := by
  have hchecking : c.checking.Holds {} {} := by
    refine ⟨?_, ?_, hc.full, splice_of_fields hc.fresh rfl rfl⟩
    · change { c.resources with timer := false } = _
      rw [hc.resources]
    · change { c.flags with clientRead := false } = _
      rw [hc.flags]
  cases h with
  | malformed hq ht => trivial
  | throws hw hq ht => trivial
  | noDatabase hw h => exact h.enters hchecking
  | queued hw =>
      refine ⟨Holds.entered (s := .checkCredentials) ⟨?_, hchecking.flags, hc.full,
        splice_of_fields hc.fresh rfl rfl⟩ rfl (nomatch ·) ?_, nofun⟩
      · change { c.checking.resources with cancel := true, job := true } = _
        rw [hchecking.resources]
        rfl
      · rintro (he | he) <;> cases he

theorem LogsIn.enters (h : LogsIn setup c r) (hi : Inv setup c) (hs : c.state = .initial) :
    Enters setup r := by
  have hnr : c.state ≠ .ready := fun he => nomatch hs.symm.trans he
  cases h with
  | failed => trivial
  | @short bytes rest hq hlt =>
      have hfill := initialPacketsFill_filled rest (Nat.le_of_lt hlt)
      refine ⟨⟨⟨hi.resources, hi.mode, fun _ => ?_, fun hn => (hn hs).elim, hi.flags,
        fun hn => splice_of_fields (hi.fresh hn) rfl rfl, fun hr => (hnr hr).elim⟩, hi.flags hnr⟩,
        fun hr => (hnr hr).elim⟩
      rw [hfill]
      exact hlt
  | @complete bytes rest hq heq r h =>
      refine h.enters ⟨?_, ?_, ?_, splice_of_fields (hi.fresh hnr) rfl rfl⟩
      · exact hi.resources.trans (by rw [hs]; rfl)
      · exact (hi.flags hnr).trans (by rw [hs]; rfl)
      · rw [initialPacketsFill_filled rest (Nat.le_of_eq heq)]
        exact heq

/-! ## The server list mode -/

theorem Plays.enters (h : Plays setup c r) (hl : setup.config.serverList ≠ [])
    (hc : c.Holds { timer := true } { clientRead := true }) : Enters setup r := by
  cases h with
  | failed hs => trivial
  | connects hq hlen hs h =>
      refine h.enters rfl ⟨?_, ?_, hc.full, splice_of_fields hc.fresh rfl rfl⟩
      · change { c.resources with timer := false, play := true } = _
        rw [hc.resources, Config.listed_eq_true hl]
      · change { c.flags with clientRead := false } = _
        rw [hc.flags, Config.listed_eq_true hl]
        rfl

theorem Lists.enters (h : Lists c r)
    (hc : c.Holds (resourcesIn setup.config.listed .sendPlayServer)
      (flagsIn setup.config.listed .sendPlayServer)) :
    r.Satisfies (Entered setup) (fun _ => True) fun _ _ => False := by
  cases h with
  | failed hs => trivial
  | played hq hlen hle =>
      refine Holds.entered (s := .ready) ⟨hc.resources, ?_, hc.full,
        splice_of_fields hc.fresh rfl rfl⟩ rfl (nomatch ·) ?_
      · change { c.flags with clientRead := true } = _
        rw [hc.flags]
        rfl
      · rintro (he | he) <;> cases he

/-! ## The relay -/

/-- In `READY`, a change of one direction keeps the invariant if it leaves that direction's lane
right. -/
theorem Inv.of_frame (hi : Inv setup c) (hs : c.state = .ready) (hf : Frame d c c')
    (hd : (c'.lane d).Ok) : Inv setup c' := by
  have hstate : c'.state = .ready := (congrArg Core.state hf.core).trans hs
  have hfull := hi.full (fun he => nomatch hs.symm.trans he)
  refine ⟨?_, fun h => ?_, fun h => (nomatch hstate.symm.trans h), fun _ => ?_,
    fun h => (h hstate).elim, fun h => (h hstate).elim, fun _ d' => ?_⟩
  · have hres : c'.resources = c.resources := congrArg (fun k : Core => Resources.mk k.timeout.isSome
      k.cancelPtr k.job.isSome k.connect.isSome k.outgoing k.play k.incoming) hf.core
    rw [hres, hstate, hi.resources, hs]
  · rw [hstate] at h
    rcases h with h | h <;> cases h
  · exact (congrArg Core.fill hf.core).trans hfull
  · by_cases he : d' = d
    · rw [he]
      exact hd
    · rw [hf.lane d' he]
      exact hi.relay hs d'

theorem Sends.ok {ch : SpliceChoice} (h : Sends c d ch (.alive c')) : (c'.lane d).Ok := by
  rcases h.lane with ⟨-, hw, hz, -⟩ | ⟨hr, hw, hz, hp⟩
  · exact Lane.ok_of_empty hw hz
  · exact Lane.ok_of_waiting hr hw hz hp

theorem Receives.ok {ch : SpliceChoice} (h : Receives c d ch (.alive c'))
    (hw : (c.lane d).write = false) : (c'.lane d).Ok := by
  rcases h.lane with ⟨-, hw', hz⟩ | ⟨hr, hw', hz, hp⟩
  · refine Lane.ok_of_empty ?_ hz
    rcases hw' with hw' | hw'
    · exact hw'
    · exact hw'.trans hw
  · exact Lane.ok_of_waiting hr hw' hz hp

theorem Flushes.inv {side : Side} {events : Events} {ans : Answers}
    (h : Flushes c side events ans c') (hi : Inv setup c) (hs : c.state = .ready) : Inv setup c' := by
  cases h with
  | skipped => exact hi
  | sent hw hz h => exact hi.of_frame hs h.frame h.ok

theorem Relays.keeps {side : Side} {events : Events} {ans : Answers}
    (h : Relays c side events ans r) (hi : Inv setup c) (hs : c.state = .ready)
    (hread : events.read = true → (c.event side).read = true) : Keeps setup r := by
  cases h with
  | failed => trivial
  | sent h => exact h.inv hi hs
  | @received c₁ h hr _ h' =>
      have hi₁ := h.inv hi hs
      have hs₁ : c₁.state = .ready := (congrArg Core.state h.frame.core).trans hs
      have hlane := h.frame.lane _ side.outOf_ne_into
      have hr₁ : (c₁.lane side.outOf).read = true := by
        rw [hlane]
        change (c.event side.outOf.source).read = true
        rw [side.source_outOf]
        exact hread hr
      have hok := hi₁.relay hs₁ side.outOf
      have hw₁ : (c₁.lane side.outOf).write = false :=
        (Bool.not_eq_true _).mp fun hw => hok.write.mp hw (hok.read hr₁)
      cases r with
      | alive c' => exact hi₁.of_frame hs₁ h'.frame (h'.ok hw₁)
      | destroyed c' => trivial
      | crashed why c' =>
          cases h' with
          | throws => exact rfl
          | got hq ht hd hz hp h => cases h

end Connection

end UoLogin
