import UoLogin.Connection.Stock

set_option autoImplicit false

/-!
# The daemon: many connections over one pipe stock

An `Instance` holds the connections, live and past, and the stock that their splices share. An input
is a new connection, bytes from a peer, a callback, or the stock dropping an idle pipe.

* `step_cases`: what one input can do;
* `Good`: every live connection is in its invariant, the stock is sound for all their splices
  (`PipesSound`), and the process can only have ended in the `Fatal` ways; **`good_run`**: so it is
  after every run;
* **`holds_run`**, **`holds_along`**: the rules for all further facts. A property of live connections,
  with one of past connections, holds in every run if it holds of a new connection and is kept by
  arriving bytes and by every callback of a connection in its invariant.
-/

namespace UoLogin

open Connection

/-- One connection of the daemon. -/
inductive Slot where
  | vacant
  | live (c : Connection)
  | gone (c : Connection)

structure Instance where
  stock : PipeStock UInt8 := {}
  conns : ℕ → Slot := fun _ => .vacant
  /-- how the process ended, if it has -/
  crashed : Option Stop := none

inductive Input where
  | accept (id : ℕ) (remoteHost : List UInt8) (perClient : Option UInt64)
  | arrive (id : ℕ) (side : Side) (bytes : List UInt8)
  | event (id : ℕ) (e : Event) (ans : Answers)
  | discard (k : ℕ)

/-- Bytes arrive in the socket's queue. -/
def Connection.arrive (c : Connection) (side : Side) (bytes : List UInt8) : Connection :=
  c.setInbound { c.inbound side with queue := (c.inbound side).queue ++ bytes } side

namespace Instance

variable {setup : Setup} {inst inst' : Instance}

/-- A connection of the daemon, live or past. -/
def Has (inst : Instance) (id : ℕ) (c : Connection) : Prop :=
  inst.conns id = .live c ∨ inst.conns id = .gone c

def setConn (inst : Instance) (stock : PipeStock UInt8) (id : ℕ) (slot : Slot) : Instance :=
  { inst with stock := stock, conns := Function.update inst.conns id slot }

/-- What a handler leaves: the connection goes on, is deleted, or the process is over. -/
def settle (inst : Instance) (id : ℕ) (stock : PipeStock UInt8) : Result → Instance
  | .alive c => inst.setConn stock id (.live c)
  | .destroyed c => inst.setConn (c.destructor stock).1 id (.gone (c.destructor stock).2)
  | .crashed why c => { inst.setConn stock id (.gone c) with crashed := some why }

/-- One input, while the process runs. -/
def step (setup : Setup) (inst : Instance) (input : Input) : Option Instance :=
  match inst.crashed with
  | some _ => none
  | none =>
    match input with
    | .accept id remoteHost perClient =>
      match inst.conns id with
      | .vacant => some (inst.setConn inst.stock id (.live (new remoteHost perClient)))
      | _ => none
    | .arrive id side bytes =>
      match inst.conns id with
      | .live c => some (inst.setConn inst.stock id (.live (c.arrive side bytes)))
      | _ => none
    | .event id e ans =>
      match inst.conns id with
      | .live c =>
        (dispatch setup inst.stock c ans e).map fun r => inst.settle id r.1 r.2
      | _ => none
    | .discard k => some { inst with stock := inst.stock.discard k }

/-- The runs of the daemon. -/
def Run (setup : Setup) (inputs : List Input) (inst : Instance) : Prop :=
  Machine.run (step setup) {} inputs = some inst

/-- **What one input can do.** -/
inductive Steps (setup : Setup) (inst : Instance) : Input → Instance → Prop
  | accept {id : ℕ} {remoteHost : List UInt8} {perClient : Option UInt64}
      (hc : inst.conns id = .vacant) :
      Steps setup inst (.accept id remoteHost perClient)
        (inst.setConn inst.stock id (.live (new remoteHost perClient)))
  | arrive {id : ℕ} {side : Side} {bytes : List UInt8} {c : Connection}
      (hc : inst.conns id = .live c) :
      Steps setup inst (.arrive id side bytes)
        (inst.setConn inst.stock id (.live (c.arrive side bytes)))
  | event {id : ℕ} {e : Event} {ans : Answers} {c : Connection} (hc : inst.conns id = .live c)
      {stock : PipeStock UInt8} {r : Result}
      (h : dispatch setup inst.stock c ans e = some (stock, r)) :
      Steps setup inst (.event id e ans) (inst.settle id stock r)
  | discard {k : ℕ} : Steps setup inst (.discard k) { inst with stock := inst.stock.discard k }

theorem step_cases {input : Input} (h : step setup inst input = some inst') :
    inst.crashed = none ∧ Steps setup inst input inst' := by
  unfold step at h
  split at h
  · cases h
  rename_i hcrashed
  refine ⟨hcrashed, ?_⟩
  cases input with
  | accept id remoteHost perClient =>
      simp only at h
      split at h
      · rename_i hc
        cases h
        exact .accept hc
      · cases h
  | arrive id side bytes =>
      simp only at h
      split at h
      · rename_i c hc
        cases h
        exact .arrive hc
      · cases h
  | event id e ans =>
      simp only at h
      split at h
      · rename_i c hc
        obtain ⟨⟨stock, r⟩, hd, he⟩ := Option.map_eq_some_iff.mp h
        cases he
        exact .event hc hd
      · cases h
  | discard k =>
      cases h
      exact .discard

/-! ## The invariant of the daemon -/

/-- The splices of the live connections. -/
def family (inst : Instance) (i : ℕ × Dir) : Splice UInt8 :=
  match inst.conns i.1 with
  | .live c => c.splice i.2
  | _ => {}

theorem family_live {id : ℕ} {c : Connection} (hc : inst.conns id = .live c) (d : Dir) :
    inst.family (id, d) = c.splice d := by
  unfold family
  rw [hc]

theorem withConn_family {id : ℕ} {c : Connection} (hc : ∀ d, inst.family (id, d) = c.splice d) :
    withConn inst.family id c = inst.family := by
  funext ⟨j, d⟩
  unfold withConn
  split
  · rename_i hj
    change j = id at hj
    subst hj
    exact (hc d).symm
  · rfl

theorem family_setConn (inst : Instance) (stock : PipeStock UInt8) (id : ℕ) (c : Connection) :
    (inst.setConn stock id (.live c)).family = withConn inst.family id c := by
  funext ⟨j, d⟩
  unfold withConn family setConn
  by_cases hj : j = id
  · subst hj
    simp only [Function.update_self, if_true]
  · simp only [Function.update_of_ne hj, if_neg hj]

theorem family_gone (inst : Instance) (stock : PipeStock UInt8) (id : ℕ) (c : Connection)
    (i : ℕ × Dir) :
    (inst.setConn stock id (.gone c)).family i = if i.1 = id then {} else inst.family i := by
  unfold family setConn
  by_cases hi : i.1 = id
  · rw [hi]
    simp only [Function.update_self, if_true]
  · simp only [Function.update_of_ne hi, if_neg hi]

structure Good (setup : Setup) (inst : Instance) : Prop where
  live : ∀ {id c}, inst.conns id = .live c → Connection.Inv setup c
  pipes : inst.crashed = none → PipesSound inst.stock inst.family
  fatal : ∀ {why}, inst.crashed = some why → Fatal setup why

theorem Good.books (h : Good setup inst) (hcrashed : inst.crashed = none) {id : ℕ} {c : Connection}
    (hc : inst.conns id = .live c) : c.Books :=
  books_of_pipes (h.pipes hcrashed) (family_live hc)

/-- The stock is sound for what a callback leaves. -/
theorem Good.pipes_called (h : Good setup inst) (hcrashed : inst.crashed = none) {id : ℕ}
    {c : Connection} (hc : inst.conns id = .live c) {ans : Answers} {e : Event}
    {stock : PipeStock UInt8} {r : Result} (hr : Called setup inst.stock c ans e stock r) :
    PipesSound stock (withConn inst.family id r.conn) := by
  refine hr.pipes ?_
  rw [withConn_family (family_live hc)]
  exact h.pipes hcrashed

theorem Good.books_called (h : Good setup inst) (hcrashed : inst.crashed = none) {id : ℕ}
    {c : Connection} (hc : inst.conns id = .live c) {ans : Answers} {e : Event}
    {stock : PipeStock UInt8} {r : Result} (hr : Called setup inst.stock c ans e stock r) :
    r.conn.Books :=
  books_of_pipes (h.pipes_called hcrashed hc hr) (withConn_self _ id r.conn)

theorem good_empty : Good setup {} where
  live := nofun
  pipes := fun _ => pipesSound_empty
  fatal := nofun

theorem inv_arrive {c : Connection} (h : Connection.Inv setup c) (side : Side) (bytes : List UInt8) :
    Connection.Inv setup (c.arrive side bytes) := by
  have hlane : ∀ d, (c.arrive side bytes).lane d = c.lane d := by
    intro d
    cases side <;> cases d <;> rfl
  have hfresh : c.state ≠ .ready → ∀ d, (c.arrive side bytes).splice d = {} := fun hr d =>
    (splice_setInbound c _ side d).trans (h.fresh hr d)
  have hrelay : c.state = .ready → ∀ d, ((c.arrive side bytes).lane d).Ok := by
    intro hr d
    rw [hlane]
    exact h.relay hr d
  cases side with
  | client => exact ⟨h.resources, h.mode, h.fill, h.full, h.flags, hfresh, hrelay⟩
  | server => exact ⟨h.resources, h.mode, h.fill, h.full, h.flags, hfresh, hrelay⟩

/-- A slot after one slot was changed. -/
theorem conns_setConn {stock : PipeStock UInt8} {id j : ℕ} {slot slot' : Slot}
    (h : (inst.setConn stock id slot).conns j = slot') :
    j = id ∧ slot = slot' ∨ inst.conns j = slot' := by
  change Function.update inst.conns id slot j = slot' at h
  by_cases hj : j = id
  · subst hj
    exact .inl ⟨rfl, (Function.update_self ..).symm.trans h⟩
  · exact .inr ((Function.update_of_ne hj ..).symm.trans h)

/-- The live connections after a callback. -/
theorem live_settle {stock : PipeStock UInt8} {id j : ℕ} {r : Result} {c : Connection}
    (h : (inst.settle id stock r).conns j = .live c) :
    j = id ∧ r = .alive c ∨ inst.conns j = .live c := by
  cases r with
  | alive c' =>
      have h : (inst.setConn stock id (.live c')).conns j = .live c := h
      rcases conns_setConn h with ⟨hj, he⟩ | hold
      · cases he
        exact .inl ⟨hj, rfl⟩
      · exact .inr hold
  | destroyed c' =>
      have h : (inst.setConn (c'.destructor stock).1 id (.gone (c'.destructor stock).2)).conns j =
        .live c := h
      rcases conns_setConn h with ⟨-, he⟩ | hold
      · cases he
      · exact .inr hold
  | crashed why c' =>
      have h : (inst.setConn stock id (.gone c')).conns j = .live c := h
      rcases conns_setConn h with ⟨-, he⟩ | hold
      · cases he
      · exact .inr hold

variable {L G : Connection → Prop}

/-- `L` holds of the live connections and `G` of the past ones. -/
structure Holds (L G : Connection → Prop) (inst : Instance) : Prop where
  live : ∀ {id c}, inst.conns id = .live c → L c
  gone : ∀ {id c}, inst.conns id = .gone c → G c

theorem Holds.setConn (h : Holds L G inst) {stock : PipeStock UInt8} {id : ℕ} {slot : Slot}
    (hlive : ∀ c, slot = .live c → L c) (hgone : ∀ c, slot = .gone c → G c) :
    Holds L G (inst.setConn stock id slot) where
  live := fun hc => by
    rcases conns_setConn hc with ⟨-, he⟩ | hc
    · exact hlive _ he
    · exact h.live hc
  gone := fun hc => by
    rcases conns_setConn hc with ⟨-, he⟩ | hc
    · exact hgone _ he
    · exact h.gone hc

/-- A connection that is deleted hands its pipes back. -/
theorem Good.settle_destroyed (h : Good setup inst) (hcrashed : inst.crashed = none) {id : ℕ}
    {c : Connection} {stock : PipeStock UInt8} (hpipes : PipesSound stock (withConn inst.family id c)) :
    Good setup (inst.settle id stock (.destroyed c)) := by
  refine ⟨(Holds.setConn ⟨h.live, fun _ => trivial⟩ (fun c he => (by cases he))
    fun _ _ => trivial).live (G := fun _ => True), fun _ => ?_, fun he => nomatch hcrashed.symm.trans he⟩
  refine destructor_pipes hpipes (fun d => ?_) fun i hi => ?_
  · exact (family_gone ..).trans (if_pos rfl)
  · exact (family_gone ..).trans (if_neg hi)

/-- **Every input keeps the daemon good.** -/
theorem good_step {input : Input} (h : Good setup inst) (hs : step setup inst input = some inst') :
    Good setup inst' := by
  obtain ⟨hcrashed, hs⟩ := step_cases hs
  have hpipes := h.pipes hcrashed
  have hlive : ∀ stock {id slot}, (∀ c, slot = .live c → Connection.Inv setup c) →
      Holds (Connection.Inv setup) (fun _ => True) (inst.setConn stock id slot) := fun _ {_ _} hslot =>
    Holds.setConn ⟨h.live, fun _ => trivial⟩ hslot fun _ _ => trivial
  cases hs with
  | @accept id remoteHost perClient hc =>
      refine ⟨(hlive _ fun c he => ?_).live, fun _ => ?_, fun he => nomatch hcrashed.symm.trans he⟩
      · cases he
        exact inv_new _ _
      · rw [family_setConn, withConn_family fun d => ?_]
        · exact hpipes
        · unfold family
          rw [hc]
          cases d <;> rfl
  | @arrive id side bytes c hc =>
      refine ⟨(hlive _ fun c' he => ?_).live, fun _ => ?_, fun he => nomatch hcrashed.symm.trans he⟩
      · cases he
        exact inv_arrive (h.live hc) side bytes
      · rw [family_setConn, withConn_family fun d => ?_]
        · exact hpipes
        · rw [family_live hc]
          exact (splice_setInbound c _ side d).symm
  | @event id e ans c hc stock r hd =>
      have hi := h.live hc
      have hpipes' := h.pipes_called hcrashed hc (dispatch_called hi hd)
      have hinv := dispatch_inv hi hd
      cases r with
      | alive c' =>
          refine ⟨(hlive _ fun c he => ?_).live, fun _ => ?_, fun he => nomatch hcrashed.symm.trans he⟩
          · cases he
            exact hinv
          · change PipesSound stock (inst.setConn stock id (.live c')).family
            rw [family_setConn]
            exact hpipes'
      | destroyed c' => exact h.settle_destroyed hcrashed hpipes'
      | crashed why c' =>
          refine ⟨(hlive stock fun c he => (by cases he)).live, fun he => (nomatch he), fun he => ?_⟩
          cases he
          exact hinv
  | discard => exact ⟨h.live, fun hc => (h.pipes hc).discard _, h.fatal⟩

/-- **The daemon is good after every run.** -/
theorem good_run {inputs : List Input} (h : Run setup inputs inst) : Good setup inst :=
  Machine.invariant (fun _ _ _ hg hs => good_step hg hs) good_empty h

/-- The books of the live connections are right, also at the end of the process. -/
theorem books_run {inputs : List Input} (h : Run setup inputs inst) {id : ℕ} {c : Connection}
    (hc : inst.conns id = .live c) : c.Books := by
  refine (Machine.invariant (I := fun inst => Good setup inst ∧
    ∀ id c, inst.conns id = .live c → c.Books) (fun inst input inst' hI hs => ?_)
    ⟨good_empty, fun id c hc => by cases hc⟩ h).2 id c hc
  have hg := good_step hI.1 hs
  refine ⟨hg, fun id c hc => ?_⟩
  cases hcrashed : inst'.crashed with
  | none => exact hg.books hcrashed hc
  | some why =>
      -- the last callback only took its own connection away
      obtain ⟨hrunning, hs⟩ := step_cases hs
      cases hs with
      | accept | arrive | discard => exact nomatch hrunning.symm.trans hcrashed
      | @event id' _ _ _ _ stock r _ =>
          rcases live_settle hc with ⟨-, rfl⟩ | hc
          · exact nomatch hrunning.symm.trans hcrashed
          · exact hI.2 id c hc

/-! ## Further facts -/

/-- The input is no callback, or one that meets `D`. -/
def Meets (D : Connection → Event → Answers → Prop) (inst : Instance) (input : Input) : Prop :=
  ∀ id e ans c, input = .event id e ans → inst.conns id = .live c → D c e ans

section Facts

variable {D : Connection → Event → Answers → Prop}

/-- **Facts about connections, along a condition on the callbacks**, from the callbacks
themselves. -/
theorem dispatches_along (hnew : ∀ remoteHost perClient, L (new remoteHost perClient))
    (harrive : ∀ {c} side bytes, L c → L (c.arrive side bytes))
    (hcall : ∀ {stock c ans e stock' r}, Connection.Inv setup c → c.Books → r.conn.Books → L c →
      D c e ans → dispatch setup stock c ans e = some (stock', r) → r.Satisfies L G fun _ => G)
    (hgone : ∀ {stock c}, G c → G (c.destructor stock).2) {inputs : List Input}
    (hD : Machine.Along (step setup) (Meets D) {} inputs) (h : Run setup inputs inst) :
    Holds L G inst := by
  refine (Machine.invariant_along (I := fun inst => Good setup inst ∧ Holds L G inst)
    (fun inst input inst' hI hM hs => ?_) ⟨good_empty, nofun, nofun⟩ hD h).2
  obtain ⟨hg, hh⟩ := hI
  refine ⟨good_step hg hs, ?_⟩
  obtain ⟨hcrashed, hs⟩ := step_cases hs
  cases hs with
  | accept hc =>
      refine hh.setConn (fun c he => ?_) fun c he => (nomatch he)
      cases he
      exact hnew _ _
  | arrive hc =>
      refine hh.setConn (fun c he => ?_) fun c he => (nomatch he)
      cases he
      exact harrive _ _ (hh.live hc)
  | @event id e ans c hc stock r hd =>
      have hi := hg.live hc
      have hcalled := dispatch_called hi hd
      have hr := hcall hi (hg.books hcrashed hc) (hg.books_called hcrashed hc hcalled) (hh.live hc)
        (hM id e ans c rfl hc) hd
      cases r with
      | alive c' =>
          refine hh.setConn (fun c he => ?_) fun c he => (nomatch he)
          cases he
          exact hr
      | destroyed c' =>
          refine hh.setConn (fun c he => (nomatch he)) fun c he => ?_
          cases he
          exact hgone hr
      | crashed why c' =>
          have hset : Holds L G (inst.setConn stock id (.gone c')) := by
            refine hh.setConn (fun c he => (nomatch he)) fun c he => ?_
            cases he
            exact hr
          exact ⟨hset.live, hset.gone⟩
  | discard => exact ⟨hh.live, hh.gone⟩

/-- **Facts about connections, along a condition on the callbacks.** -/
theorem holds_along (hnew : ∀ remoteHost perClient, L (new remoteHost perClient))
    (harrive : ∀ {c} side bytes, L c → L (c.arrive side bytes))
    (hcall : ∀ {stock c ans e stock' r}, Connection.Inv setup c → c.Books → r.conn.Books → L c →
      D c e ans → Called setup stock c ans e stock' r → r.Satisfies L G fun _ => G)
    (hgone : ∀ {stock c}, G c → G (c.destructor stock).2) {inputs : List Input}
    (hD : Machine.Along (step setup) (Meets D) {} inputs) (h : Run setup inputs inst) :
    Holds L G inst :=
  dispatches_along hnew harrive
    (fun hi hb hb' hL hD hd => hcall hi hb hb' hL hD (dispatch_called hi hd)) hgone hD h

/-- **Facts about connections.** -/
theorem holds_run (hnew : ∀ remoteHost perClient, L (new remoteHost perClient))
    (harrive : ∀ {c} side bytes, L c → L (c.arrive side bytes))
    (hcall : ∀ {stock c ans e stock' r}, Connection.Inv setup c → c.Books → r.conn.Books → L c →
      Called setup stock c ans e stock' r → r.Satisfies L G fun _ => G)
    (hgone : ∀ {stock c}, G c → G (c.destructor stock).2) {inputs : List Input}
    (h : Run setup inputs inst) : Holds L G inst := by
  refine holds_along (D := fun _ _ _ => True) hnew harrive
    (fun hi hb hb' hL _ hr => hcall hi hb hb' hL hr) hgone ?_ h
  exact Machine.along_of_forall (fun _ _ _ _ _ _ _ _ _ => trivial) _

end Facts

/-! ## A client to run the daemon with -/

/-- A seed, and the login of the user `a` with the password `b`. -/
def samplePackets : List UInt8 :=
  0xef :: List.replicate 20 0 ++ 0x80 :: 0x61 :: List.replicate 29 0 ++ 0x62 :: List.replicate 30 0

def sampleSetup (serverList : List GameServerConfig) : Setup where
  config := { gameServer := .null, serverList := serverList, sendRemoteIp := false }
  util := .ascii

/-- The client of connection 0 sends its login packets, and the check is queued. -/
def sampleCheck : List Input :=
  [.accept 0 [] none, .arrive 0 .client samplePackets,
    .event 0 (.incomingReady { read := true }) { read := .upTo 82 }]

/-- The verdict is positive, and the game server answers at once. -/
def sampleReady : List Input := [.event 0 (.checkDone true) {}, .event 0 .connectSuccess {}]

end Instance

end UoLogin
