import UoLogin.Connection.Dispatch
import UoLogin.SharedPipes

set_option autoImplicit false

/-!
# A connection and the shared stock

The two splices of a connection are two members of the family of all splices that share the stock
(`withConn`). The relay and the destructor keep the stock sound for that family
(`relayReady_pipes`, `destructor_pipes`), and the other callbacks do not touch the splices at all, so
that a callback keeps it sound (**`Called.pipes`**).

`Books` is what a connection knows of it: each direction has delivered a prefix of what it took, and
all of it once the buffer is empty.
-/

namespace UoLogin

namespace Connection

variable {ι : Type*} [DecidableEq ι] {f : ι × Dir → Splice UInt8} {id : ι} {setup : Setup}
  {c c' : Connection} {r : Result} {stock stock' : PipeStock UInt8} {ans : Answers}

/-- The family `f`, with the splices of the connection `c` under the number `id`. -/
def withConn (f : ι × Dir → Splice UInt8) (id : ι) (c : Connection) (i : ι × Dir) : Splice UInt8 :=
  if i.1 = id then c.splice i.2 else f i

theorem withConn_self (f : ι × Dir → Splice UInt8) (id : ι) (c : Connection) (d : Dir) :
    withConn f id c (id, d) = c.splice d :=
  if_pos rfl

theorem withConn_congr (f : ι × Dir → Splice UInt8) (id : ι) (h : ∀ d, c'.splice d = c.splice d) :
    withConn f id c' = withConn f id c := by
  funext i
  unfold withConn
  rw [h]

/-- One direction changes. -/
theorem withConn_update (f : ι × Dir → Splice UInt8) (id : ι) {s : Splice UInt8} {d : Dir}
    (hs : c'.splice d = s) (ho : ∀ d', d' ≠ d → c'.splice d' = c.splice d') :
    withConn f id c' = Function.update (withConn f id c) (id, d) s := by
  funext ⟨j, d'⟩
  by_cases hj : j = id
  · subst hj
    by_cases hd : d' = d
    · subst hd
      rw [Function.update_self, withConn_self]
      exact hs
    · rw [Function.update_of_ne (fun h => hd (congrArg Prod.snd h)), withConn_self, withConn_self]
      exact ho d' hd
  · rw [Function.update_of_ne (fun h => hj (congrArg Prod.fst h))]
    unfold withConn
    rw [if_neg hj, if_neg hj]

/-! ## The relay -/

theorem splice_setSplice (c : Connection) (s : Splice UInt8) (d : Dir) :
    (c.setSplice s d).splice d = s := by
  cases d <;> rfl

theorem splice_setSplice_of_ne (c : Connection) (s : Splice UInt8) {d d' : Dir} (h : d' ≠ d) :
    (c.setSplice s d).splice d' = c.splice d' := by
  cases d <;> cases d' <;> first | exact (h rfl).elim | rfl

theorem splice_setInbound (c : Connection) (s : Inbound) (side : Side) (d : Dir) :
    (c.setInbound s side).splice d = c.splice d := by
  cases side <;> cases d <;> rfl

theorem sendOrDestroy_pipes (h : PipesSound stock (withConn f id c)) (d : Dir) (ch : SpliceChoice) :
    PipesSound (sendOrDestroy stock c d ch).1 (withConn f id (sendOrDestroy stock c d ch).2.conn) := by
  unfold sendOrDestroy doSpliceSend
  simp only [splice_emit]
  have hemit : ∀ a, withConn f id (c.emit a) = withConn f id c := fun a =>
    withConn_congr f id (splice_emit c a)
  cases hsent : Splice.sendTo stock (c.splice d) ch with
  | error e =>
      simp only [Result.conn]
      rw [hemit]
      exact h
  | ok sent =>
      rw [← withConn_self f id c d] at hsent
      have hsound := (sendTo_sound h hsent).1
      rw [← withConn_update f id (splice_setSplice c sent.splice d)
        fun d' => splice_setSplice_of_ne c sent.splice] at hsound
      -- in every branch only the log and the flags still change
      have hconn : ∀ {x : Connection}, (∀ d', x.splice d' = (c.setSplice sent.splice d).splice d') →
          PipesSound sent.stock (withConn f id x) := by
        intro x hx
        rw [withConn_congr f id hx]
        exact hsound
      have hsame : ∀ a b d', (((c.emit a).setSplice sent.splice d).emit b).splice d' =
          (c.setSplice sent.splice d).splice d' := by
        intro a b d'
        cases d <;> cases d' <;> rfl
      simp only
      cases hr : sent.result with
      | ok =>
          exact hconn fun d' => (splice_mapEvent _ _ _ d').trans (hsame _ _ d')
      | partialSend | socketBlocking =>
          exact hconn fun d' =>
            ((splice_mapEvent _ _ _ d').trans (splice_mapEvent _ _ _ d')).trans (hsame _ _ d')
      | error => exact hconn fun d' => hsame _ _ d'

/-- The counter of received bytes is nobody's business. -/
theorem clearReceived_pipes (h : PipesSound stock (withConn f id c)) (d : Dir) :
    PipesSound stock (withConn f id (c.setSplice (c.splice d).clearReceived d)) := by
  rw [withConn_update f id (splice_setSplice c _ d) fun d' => splice_setSplice_of_ne c _]
  have hself := withConn_self f id c d
  have hsize := h.size (id, d)
  have hfifo := h.fifo (id, d)
  rw [hself] at hsize hfifo
  refine h.update (id, d) _ ?_ (fun _ _ _ _ => rfl) hsize hfifo
  have hpipe : (c.splice d).clearReceived.pipe = (withConn f id c (id, d)).pipe := by
    rw [hself]
    rfl
  rw [hpipe, Function.update_eq_self]
  exact h.pool

theorem receiveReady_pipes (h : PipesSound stock (withConn f id c)) (d : Dir) (ans : Answers) :
    PipesSound (receiveReady stock c d ans).1 (withConn f id (receiveReady stock c d ans).2.conn) := by
  have hc := clearReceived_pipes h d
  generalize hs : (c.splice d).clearReceived = s at hc
  unfold receiveReady
  simp only [hs, inbound_emit_setSplice]
  cases hgot : Splice.receiveFrom stock s (c.inbound d.source).queue ans.getNow ans.receive with
  | error e =>
      change PipesSound stock (withConn f id ((c.setSplice s d).emit (.receiveFrom d s.size)))
      rw [withConn_congr f id (splice_emit _ _)]
      exact hc
  | ok got =>
      have hself := (withConn_self f id (c.setSplice s d) d).trans (splice_setSplice c s d)
      rw [← hself] at hgot
      have hsound := (receiveFrom_sound hc hgot).1
      rw [← withConn_update f id (splice_setSplice (c.setSplice s d) got.splice d)
        fun d' => splice_setSplice_of_ne (c.setSplice s d) got.splice] at hsound
      have hconn : ∀ {x : Connection},
          (∀ d', x.splice d' = ((c.setSplice s d).setSplice got.splice d).splice d') →
            PipesSound got.stock (withConn f id x) := by
        intro x hx
        rw [withConn_congr f id hx]
        exact hsound
      have hsame : ∀ a b q d', (((((c.setSplice s d).emit a).setInbound q d.source).setSplice
          got.splice d).emit b).splice d' = ((c.setSplice s d).setSplice got.splice d).splice d' := by
        intro a b q d'
        cases d <;> cases d' <;> rfl
      simp only
      cases hr : got.result with
      | ok => exact sendOrDestroy_pipes (hconn fun d' => (splice_emit _ _ d').trans (hsame _ _ _ d')) d _
      | socketBlocking | error => exact hconn fun d' => hsame _ _ _ d'
      | socketClosed =>
          exact hconn fun d' => ((splice_emit _ _ d').trans (splice_emit _ _ d')).trans (hsame _ _ _ d')
      | pipeFull =>
          simp only
          split
          · exact hconn fun d' => hsame _ _ _ d'
          · exact hconn fun d' => (splice_mapEvent _ _ _ d').trans (hsame _ _ _ d')

theorem relayReady_pipes (h : PipesSound stock (withConn f id c)) (side : Side) (events : Events)
    (ans : Answers) :
    PipesSound (relayReady stock c side events ans).1
      (withConn f id (relayReady stock c side events ans).2.conn) := by
  have hread : ∀ {stock' : PipeStock UInt8} {c' : Connection}, PipesSound stock' (withConn f id c') →
      PipesSound (if events.read then receiveReady stock' c' side.outOf ans else (stock', .alive c')).1
        (withConn f id (if events.read then receiveReady stock' c' side.outOf ans
          else (stock', .alive c')).2.conn) := by
    intro stock' c' h'
    split
    · exact receiveReady_pipes h' _ ans
    · exact h'
  unfold relayReady
  split
  · have hs := sendOrDestroy_pipes h side.into ans.sendReady
    generalize sendOrDestroy stock c side.into ans.sendReady = sent at hs
    obtain ⟨stock', res⟩ := sent
    cases res with
    | alive c' => exact hread hs
    | destroyed c' => exact hs
    | crashed why c' => exact hs
  · exact hread h

/-! ## The other callbacks -/

/-- What only the login packets and the relay change. -/
structure Kept where
  remoteHost : List UInt8
  initialPackets : InitialPackets
  fill : ℕ
  inOut : Splice UInt8
  outIn : Splice UInt8

def kept (c : Connection) : Kept where
  remoteHost := c.remoteHost
  initialPackets := c.initialPackets
  fill := c.initialPacketsFill
  inOut := c.spliceInOut
  outIn := c.spliceOutIn

theorem splice_of_kept (h : c'.kept = c.kept) (d : Dir) : c'.splice d = c.splice d := by
  cases d with
  | inOut => exact congrArg Kept.inOut h
  | outIn => exact congrArg Kept.outIn h

theorem Establishes.kept (h : Establishes setup c r) : r.conn.kept = c.kept := by
  cases h <;> rfl

theorem Connects.kept {address : SocketAddress} (h : Connects setup address c r) :
    r.conn.kept = c.kept := by
  cases h with
  | pending | failed => rfl
  | now h => exact h.kept

theorem Accepts.kept (h : Accepts setup c r) : r.conn.kept = c.kept := by
  cases h with
  | failed | listed => rfl
  | direct hl h => exact h.kept

theorem Judges.kept {username : List UInt8} {result : Bool} (h : Judges setup username c result r) :
    r.conn.kept = c.kept := by
  cases h with
  | rejected => rfl
  | accepted hq h => exact h.kept

theorem Completes.kept (h : Completes setup c r) : r.conn.kept = c.kept := by
  cases h with
  | malformed | throws | queued => rfl
  | noDatabase hw h => exact h.kept

theorem Plays.kept (h : Plays setup c r) : r.conn.kept = c.kept := by
  cases h with
  | failed => rfl
  | connects hq hlen hs h => exact h.kept

theorem Lists.kept (h : Lists c r) : r.conn.kept = c.kept := by
  cases h <;> rfl

theorem LogsIn.splice (h : LogsIn setup c r) (d : Dir) : r.conn.splice d = c.splice d := by
  cases h with
  | failed | short => cases d <;> rfl
  | complete hq heq h =>
      refine (splice_of_kept h.kept d).trans ?_
      cases d <;> rfl

/-- **A callback keeps the stock sound.** -/
theorem Called.pipes {e : Event} (h : Called setup stock c ans e stock' r)
    (hp : PipesSound stock (withConn f id c)) : PipesSound stock' (withConn f id r.conn) := by
  cases h with
  | dies => exact hp
  | connectPending => exact hp
  | logsIn hs h =>
      rw [withConn_congr f id h.splice]
      exact hp
  | plays hs h =>
      rw [withConn_congr f id (splice_of_kept h.kept)]
      exact hp
  | lists hs h =>
      rw [withConn_congr f id (splice_of_kept h.kept)]
      exact hp
  | @relays side events hs hd _ _ _ he h =>
      have hr := relayReady_pipes hp side events ans
      rw [he] at hr
      exact hr
  | establishes hs h =>
      rw [withConn_congr f id (splice_of_kept h.kept)]
      exact hp
  | judges hs hj h =>
      rw [withConn_congr f id (splice_of_kept h.kept)]
      exact hp

/-! ## The destructor -/

/-- The destructor gives the pipes back and leaves a family without this connection's splices. -/
theorem destructor_pipes (h : PipesSound stock (withConn f id c)) {f' : ι × Dir → Splice UInt8}
    (hid : ∀ d, f' (id, d) = {}) (hf : ∀ i, i.1 ≠ id → f' i = f i) :
    PipesSound (c.destructor stock).1 f' := by
  have hout := destroy_sound h (id, .outIn)
  have hin := destroy_sound hout (id, .inOut)
  have hne : (id, Dir.inOut) ≠ (id, Dir.outIn) := fun he => nomatch he
  rw [Function.update_of_ne hne, withConn_self, withConn_self] at hin
  have hfam : f' = Function.update (Function.update (withConn f id c) (id, .outIn) {}) (id, .inOut)
      {} := by
    funext ⟨j, d⟩
    by_cases hj : j = id
    · subst hj
      rw [hid]
      cases d with
      | inOut => rw [Function.update_self]
      | outIn => rw [Function.update_of_ne hne.symm, Function.update_self]
    · rw [Function.update_of_ne (fun he => hj (congrArg Prod.fst he)),
        Function.update_of_ne (fun he => hj (congrArg Prod.fst he)), hf _ hj]
      exact (if_neg hj).symm
  rw [hfam]
  exact hin

/-! ## The books of a connection -/

/-- What each direction took and delivered. -/
def Books (c : Connection) : Prop :=
  ∀ d, (c.splice d).delivered <+: (c.splice d).taken ∧
    ((c.splice d).size = 0 → (c.splice d).delivered = (c.splice d).taken)

omit [DecidableEq ι] in
theorem books_of_pipes (h : PipesSound stock f) (hc : ∀ d, f (id, d) = c.splice d) :
    c.Books := by
  intro d
  rw [← hc]
  exact ⟨⟨_, h.fifo (id, d)⟩, h.delivered_eq_taken⟩

end Connection

end UoLogin
