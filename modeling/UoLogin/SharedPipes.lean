import UoLogin.Lib.Machine
import UoLogin.Splice

set_option autoImplicit false

/-!
# Splices sharing one stock

`PipesSound stock f` relates the stock to a family `f` of `Splice`s that use it: the pool is sound
for the pipes they hold, every `size` is the number of bytes in the pipe, and what was delivered,
followed by what is still in the pipe, is what was taken. Every operation on one member of the
family keeps it (`receiveFrom_sound`, `sendTo_sound`, `destroy_sound`), whatever `splice()` and the
stock answer.

`Sharing` is the system of any number of `Splice`s with their sources and sinks, over one stock.
**`shared_pipes_never_leak`** is the invariant of its runs: in particular a sink only ever gets
bytes of its own source.
-/

namespace UoLogin

variable {β ι : Type*}

/-- The bytes in the pipe of a `Splice`. -/
def Splice.inPipe (s : Splice β) (stock : PipeStock β) : List β :=
  match s.pipe with
  | none => []
  | some p => stock.content p

theorem Splice.inPipe_some {s : Splice β} {p : ℕ} (h : s.pipe = some p) (stock : PipeStock β) :
    s.inPipe stock = stock.content p := by
  unfold inPipe
  rw [h]

theorem Splice.inPipe_none {s : Splice β} (h : s.pipe = none) (stock : PipeStock β) :
    s.inPipe stock = [] := by
  unfold inPipe
  rw [h]

/-- **The stock and the `Splice`s using it.** -/
structure PipesSound (stock : PipeStock β) (f : ι → Splice β) : Prop where
  pool : Pool.Sound stock fun i => (f i).pipe
  size : ∀ i, (f i).size = ((f i).inPipe stock).length
  fifo : ∀ i, (f i).delivered ++ (f i).inPipe stock = (f i).taken

theorem pipesSound_empty : PipesSound ({} : PipeStock β) (fun _ : ι => {}) where
  pool := Pool.sound_empty
  size := fun _ => rfl
  fifo := fun _ => rfl

namespace PipesSound

variable {stock stock' : PipeStock β} {f : ι → Splice β}

theorem discard (h : PipesSound stock f) (k : ℕ) : PipesSound (stock.discard k) f where
  pool := h.pool.discard k
  size := h.size
  fifo := h.fifo

/-- A `Splice` with an empty buffer has delivered everything it took. -/
theorem delivered_eq_taken (h : PipesSound stock f) {i : ι} (hi : (f i).size = 0) :
    (f i).delivered = (f i).taken := by
  have hlen := h.size i
  rw [hi] at hlen
  have hfifo := h.fifo i
  rwa [List.eq_nil_of_length_eq_zero hlen.symm, List.append_nil] at hfifo

/-- Another member never holds the pipe of member `i`. -/
theorem ne_pipe (h : PipesSound stock f) {i j : ι} {p q : ℕ} (hi : (f i).pipe = some p) (hj : j ≠ i)
    (hq : (f j).pipe = some q) : q ≠ p := by
  intro e
  subst e
  exact hj (h.pool.held_inj j i q hq hi)

variable [DecidableEq ι]

/-- One member changes: the pool is sound for the new holders, the pipes of the others keep their
bytes, and the new member's own books are right. -/
theorem update (h : PipesSound stock f) (i : ι) (s : Splice β)
    (hpool : Pool.Sound stock' (Function.update (fun j => (f j).pipe) i s.pipe))
    (hframe : ∀ j p, j ≠ i → (f j).pipe = some p → stock'.content p = stock.content p)
    (hsize : s.size = (s.inPipe stock').length) (hfifo : s.delivered ++ s.inPipe stock' = s.taken) :
    PipesSound stock' (Function.update f i s) := by
  have hin : ∀ j, j ≠ i → (f j).inPipe stock' = (f j).inPipe stock := by
    intro j hj
    cases hp : (f j).pipe with
    | none => rw [Splice.inPipe_none hp, Splice.inPipe_none hp]
    | some p => rw [Splice.inPipe_some hp, Splice.inPipe_some hp, hframe j p hj hp]
  refine ⟨?_, fun j => ?_, fun j => ?_⟩
  · have hcomp := Function.comp_update Splice.pipe f i s
    exact (congrArg (Pool.Sound stock') hcomp).mpr hpool
  · by_cases hj : j = i
    · subst hj
      rw [Function.update_self]
      exact hsize
    · rw [Function.update_of_ne hj, hin j hj]
      exact h.size j
  · by_cases hj : j = i
    · subst hj
      rw [Function.update_self]
      exact hfifo
    · rw [Function.update_of_ne hj, hin j hj]
      exact h.fifo j

end PipesSound

/-! ## One operation on one member -/

section Operations

variable [DecidableEq ι] {stock : PipeStock β} {f : ι → Splice β} {i : ι}

/-- `GetNow` gives an empty pipe and touches no pipe that is held. -/
theorem getNow_sound {held : ι → Option ℕ} (h : Pool.Sound stock held) (i : ι) {get : GetNow}
    {p : ℕ} {stock' : PipeStock β} (hg : stock.getNow get = some (p, stock')) :
    Pool.Sound stock' (Function.update held i (some p)) ∧ stock'.content p = [] ∧
      ∀ j q, held j = some q → stock'.content q = stock.content q := by
  have hnew : stock.create = (p, stock') →
      Pool.Sound stock' (Function.update held i (some p)) ∧ stock'.content p = [] ∧
        ∀ j q, held j = some q → stock'.content q = stock.content q := by
    intro hc
    obtain ⟨hs, he⟩ := h.create i
    rw [hc] at hs he
    refine ⟨hs, he, fun j q hq => ?_⟩
    have hne : q ≠ stock.next := Nat.ne_of_lt (h.held_lt j q hq)
    have : stock' = (stock.create).2 := by rw [hc]
    rw [this]
    exact Function.update_of_ne hne _ _
  cases get with
  | idle k =>
      have hg := Option.some.inj hg
      cases ht : stock.take k with
      | none =>
          rw [ht] at hg
          exact hnew hg
      | some r =>
          rw [ht] at hg
          change r = (p, stock') at hg
          subst hg
          obtain ⟨hs, he⟩ := h.take i ht
          obtain ⟨_, rfl⟩ := Pool.take_eq_some ht
          exact ⟨hs, he, fun _ _ _ => rfl⟩
  | create => exact hnew (Option.some.inj hg)
  | throws => cases hg

theorem acquire_sound (h : PipesSound stock f) {get : GetNow} {p : ℕ} {stock' : PipeStock β}
    (ha : (f i).acquire stock get = .ok (p, stock')) :
    PipesSound stock' (Function.update f i { f i with pipe := some p }) ∧
      stock'.content p = (f i).inPipe stock := by
  unfold Splice.acquire at ha
  cases hp : (f i).pipe with
  | some q =>
      rw [hp] at ha
      cases ha
      refine ⟨?_, (Splice.inPipe_some hp _).symm⟩
      rw [← hp]
      rw [show ({ f i with pipe := (f i).pipe } : Splice β) = f i from rfl, Function.update_eq_self]
      exact h
  | none =>
      rw [hp] at ha
      simp only at ha
      split at ha
      · cases ha
      · rename_i hz
        rw [not_not] at hz
        cases hg : stock.getNow get with
        | none =>
            rw [hg] at ha
            cases ha
        | some r =>
            rw [hg] at ha
            cases ha
            obtain ⟨hs, he, hframe⟩ := getNow_sound h.pool i hg
            have hnil := Splice.inPipe_none hp stock
            refine ⟨h.update i _ hs (fun j q _ hq => hframe j q hq) ?_ ?_, by rw [he, hnil]⟩
            · rw [Splice.inPipe_some rfl, he, hz]
              rfl
            · rw [Splice.inPipe_some rfl, he]
              have := h.fifo i
              rwa [hnil] at this

/-- A pipe that is given back empty. -/
theorem put_sound (h : PipesSound stock f) {p : ℕ} (hp : (f i).pipe = some p) (hz : (f i).size = 0)
    (s : Splice β) (hpipe : s.pipe = none) (hsize : s.size = 0)
    (hfifo : s.delivered = s.taken) : PipesSound (stock.put p) (Function.update f i s) := by
  have hempty : stock.content p = [] := by
    have hlen := h.size i
    rw [hz, Splice.inPipe_some hp] at hlen
    exact List.eq_nil_of_length_eq_zero hlen.symm
  refine h.update i s ?_ (fun _ _ _ _ => rfl) ?_ ?_
  · rw [hpipe]
    exact h.pool.put hp hempty
  · rw [Splice.inPipe_none hpipe, hsize]
    rfl
  · rw [Splice.inPipe_none hpipe, List.append_nil]
    exact hfifo

/-- The content of a held pipe and the books of its holder change together. -/
theorem write_sound (h : PipesSound stock f) {p : ℕ} (hp : (f i).pipe = some p) (bs : List β)
    (s : Splice β) (hpipe : s.pipe = some p) (hsize : s.size = bs.length)
    (hfifo : s.delivered ++ bs = s.taken) :
    PipesSound (stock.write p bs) (Function.update f i s) := by
  have hbs : s.inPipe (stock.write p bs) = bs := by
    rw [Splice.inPipe_some hpipe, Pool.write_content, Function.update_self]
  refine h.update i s ?_ (fun j q hj hq => ?_) (by rw [hbs]; exact hsize) (by rw [hbs]; exact hfifo)
  · rw [hpipe, ← hp]
    have := h.pool.write hp bs
    rwa [Function.update_eq_self i (fun j => (f j).pipe)]
  · rw [Pool.write_content, Function.update_of_ne (h.ne_pipe hp hj hq)]

/-- **`ReceiveFrom` keeps the books**, and takes the bytes it moves from the front of its own
source. -/
theorem receiveFrom_sound (h : PipesSound stock f) {queue : List β} {get : GetNow}
    {ch : SpliceChoice} {r : Received β} (hr : (f i).receiveFrom stock queue get ch = .ok r) :
    PipesSound r.stock (Function.update f i r.splice) ∧
      r.splice.taken = (f i).taken ++ r.moved ∧ r.moved ++ r.queue = queue ∧
        r.splice.delivered = (f i).delivered := by
  unfold Splice.receiveFrom at hr
  cases ha : (f i).acquire stock get with
  | error e =>
      rw [ha] at hr
      cases hr
  | ok a =>
      obtain ⟨p, stock'⟩ := a
      obtain ⟨hs, hc⟩ := acquire_sound h ha
      have hp : (Function.update f i { f i with pipe := some p } i).pipe = some p := by
        rw [Function.update_self]
      have hover : ∀ s, Function.update (Function.update f i { f i with pipe := some p }) i s =
          Function.update f i s := fun s => Function.update_idem ..
      rw [ha] at hr
      simp only at hr
      split at hr
      · rename_i bytes rest hm
        cases hr
        obtain ⟨-, hq, -⟩ := splice_moved hm
        refine ⟨?_, rfl, hq, rfl⟩
        rw [← hover]
        refine write_sound hs hp _ _ rfl ?_ ?_
        · rw [List.length_append, hc, ← h.size i]
        · rw [hc, ← List.append_assoc, h.fifo i]
      · split at hr
        · rename_i hz
          cases hr
          refine ⟨?_, (List.append_nil _).symm, rfl, rfl⟩
          rw [← hover]
          refine put_sound hs hp ?_ _ rfl hz (h.delivered_eq_taken hz)
          rw [Function.update_self]
          exact hz
        · cases hr
          exact ⟨hs, (List.append_nil _).symm, rfl, rfl⟩
      · cases hr
        exact ⟨hs, (List.append_nil _).symm, rfl, rfl⟩
      · cases hr
        exact ⟨hs, (List.append_nil _).symm, rfl, rfl⟩

/-- **`SendTo` keeps the books**, and delivers what it moves behind what was delivered before. -/
theorem sendTo_sound (h : PipesSound stock f) {ch : SpliceChoice} {r : Sent β}
    (hr : (f i).sendTo stock ch = .ok r) :
    PipesSound r.stock (Function.update f i r.splice) ∧ r.splice.taken = (f i).taken ∧
      r.splice.delivered = (f i).delivered ++ r.moved := by
  unfold Splice.sendTo at hr
  cases hp : (f i).pipe with
  | none =>
      rw [hp] at hr
      cases hr
  | some p =>
      rw [hp] at hr
      simp only at hr
      split at hr
      · cases hr
      · have hsame : PipesSound stock (Function.update f i (f i)) := by
          rwa [Function.update_eq_self]
        split at hr
        · rename_i bytes rest hm
          obtain ⟨-, hq, -⟩ := splice_moved hm
          have hsize : (f i).size - bytes.length = rest.length := by
            rw [h.size i, Splice.inPipe_some hp, ← hq, List.length_append, Nat.add_sub_cancel_left]
          have hfifo : (f i).delivered ++ bytes ++ rest = (f i).taken := by
            rw [List.append_assoc, hq, ← Splice.inPipe_some hp]
            exact h.fifo i
          -- the pipe with the rest, still held; then it may go back
          have hw : PipesSound (stock.write p rest) (Function.update f i
              { f i with
                pipe := some p
                size := (f i).size - bytes.length
                sentBytes := (f i).sentBytes + bytes.length
                delivered := (f i).delivered ++ bytes }) :=
            write_sound h hp rest _ rfl hsize hfifo
          split at hr
          · rename_i hz
            cases hr
            refine ⟨?_, rfl, rfl⟩
            rw [hsize] at hz
            have := put_sound hw (i := i) (p := p) (by rw [Function.update_self])
              (by rw [Function.update_self]; exact hsize.trans hz)
              { f i with
                pipe := none
                size := (f i).size - bytes.length
                sentBytes := (f i).sentBytes + bytes.length
                delivered := (f i).delivered ++ bytes } rfl (hsize.trans hz) (by
                  have hf := hfifo
                  rwa [List.eq_nil_of_length_eq_zero hz, List.append_nil] at hf)
            rwa [Function.update_idem] at this
          · cases hr
            exact ⟨hw, rfl, rfl⟩
        · cases hr
          exact ⟨hsame, rfl, (List.append_nil _).symm⟩
        · cases hr
          exact ⟨hsame, rfl, (List.append_nil _).symm⟩
        · cases hr
          exact ⟨hsame, rfl, (List.append_nil _).symm⟩

/-- **`~Splice` keeps the books**: a pipe with bytes in it does not go back to the stock. -/
theorem destroy_sound (h : PipesSound stock f) (i : ι) :
    PipesSound ((f i).destroy stock) (Function.update f i {}) := by
  unfold Splice.destroy
  cases hp : (f i).pipe with
  | none => exact h.update i {} (h.pool.forget i) (fun _ _ _ _ => rfl) rfl rfl
  | some p =>
      by_cases hz : (f i).size = 0
      · simp only [if_pos hz]
        exact put_sound h hp hz {} rfl rfl rfl
      · simp only [if_neg hz]
        exact h.update i {} (h.pool.forget i) (fun _ _ _ _ => rfl) rfl rfl

end Operations

/-! ## Any number of `Splice`s -/

/-- Any number of `Splice`s over one stock, with the streams at their two ends: `queue i` is the
unread part of everything that `arrived` at the source of `i`, and `sink i` is everything the sink
of `i` got. A number is used for one `Splice` only. -/
structure Sharing (ι β : Type*) where
  stock : PipeStock β := {}
  splices : ι → Option (Splice β) := fun _ => none
  used : ι → Bool := fun _ => false
  queue : ι → List β := fun _ => []
  arrived : ι → List β := fun _ => []
  sink : ι → List β := fun _ => []

/-- What can happen: a `Splice` is constructed, bytes arrive, one of its functions is called, or
the stock drops an idle pipe. -/
inductive SharingOp (ι β : Type*) where
  | construct (i : ι)
  | arrive (i : ι) (bytes : List β)
  | receiveFrom (i : ι) (get : GetNow) (ch : SpliceChoice)
  | sendTo (i : ι) (ch : SpliceChoice)
  | destroy (i : ι)
  | discard (k : ℕ)

namespace Sharing

variable [DecidableEq ι]

/-- One operation. A call on a `Splice` that does not exist cannot happen, and after a failed
`assert` nothing happens any more; an exception leaves everything as it was. -/
def step (w : Sharing ι β) : SharingOp ι β → Option (Sharing ι β)
  | .construct i =>
    if w.used i then none
    else some { w with splices := Function.update w.splices i (some {})
                       used := Function.update w.used i true }
  | .arrive i bytes =>
    some { w with queue := Function.update w.queue i (w.queue i ++ bytes)
                  arrived := Function.update w.arrived i (w.arrived i ++ bytes) }
  | .receiveFrom i get ch =>
    match w.splices i with
    | none => none
    | some s =>
      match s.receiveFrom w.stock (w.queue i) get ch with
      | .error .throws => some w
      | .error (.abort _) => none
      | .ok r => some { w with stock := r.stock
                               splices := Function.update w.splices i (some r.splice)
                               queue := Function.update w.queue i r.queue }
  | .sendTo i ch =>
    match w.splices i with
    | none => none
    | some s =>
      match s.sendTo w.stock ch with
      | .error .throws => some w
      | .error (.abort _) => none
      | .ok r => some { w with stock := r.stock
                               splices := Function.update w.splices i (some r.splice)
                               sink := Function.update w.sink i (w.sink i ++ r.moved) }
  | .destroy i =>
    match w.splices i with
    | none => none
    | some s => some { w with stock := s.destroy w.stock
                              splices := Function.update w.splices i none }
  | .discard k => some { w with stock := w.stock.discard k }

/-- The family of the `Splice`s that exist. -/
def family (w : Sharing ι β) (i : ι) : Splice β := (w.splices i).getD {}

omit [DecidableEq ι] in
theorem family_of {w : Sharing ι β} {i : ι} {s : Splice β} (h : w.splices i = some s) :
    w.family i = s := by
  unfold family
  rw [h]
  rfl

theorem family_update (w : Sharing ι β) (i : ι) (o : Option (Splice β)) :
    (fun j => (Function.update w.splices i o j).getD {}) =
      Function.update w.family i (o.getD {}) :=
  Function.comp_update (fun o : Option (Splice β) => o.getD {}) w.splices i o

/-- The streams at the ends of `i`. -/
def Streams (w : Sharing ι β) (i : ι) : Prop :=
  (∀ s, w.splices i = some s → s.taken ++ w.queue i = w.arrived i ∧ s.delivered = w.sink i) ∧
    (w.used i = false → w.splices i = none ∧ w.queue i = w.arrived i ∧ w.sink i = []) ∧
      w.sink i <+: w.arrived i

/-- The invariant of sharing. -/
structure Inv (w : Sharing ι β) : Prop where
  pipes : PipesSound w.stock w.family
  streams : ∀ i, w.Streams i

omit [DecidableEq ι] in
theorem inv_empty : Inv ({} : Sharing ι β) where
  pipes := pipesSound_empty
  streams := fun _ => ⟨fun _ hs => (nomatch hs), fun _ => ⟨rfl, rfl, rfl⟩, List.prefix_rfl⟩

/-- What the system says about `i`. -/
def ends (w : Sharing ι β) (i : ι) : Option (Splice β) × Bool × List β × List β × List β :=
  (w.splices i, w.used i, w.queue i, w.arrived i, w.sink i)

omit [DecidableEq ι] in
/-- The streams at the ends of the others are left alone. -/
theorem streams_of_ends {w w' : Sharing ι β} {i : ι} (h : ∀ j, w.Streams j)
    (hends : ∀ j, j ≠ i → w'.ends j = w.ends j) (hi : w'.Streams i) (j : ι) : w'.Streams j := by
  by_cases hj : j = i
  · subst hj
    exact hi
  · have he := hends j hj
    simp only [ends, Prod.mk.injEq] at he
    obtain ⟨hsplices, hused, hqueue, harrived, hsink⟩ := he
    unfold Streams
    rw [hsplices, hused, hqueue, harrived, hsink]
    exact h j

section Operations

variable {w : Sharing ι β} {i : ι} {s : Splice β}

theorem inv_construct (h : Inv w) (hu : w.used i = false) :
    Inv { w with splices := Function.update w.splices i (some {})
                 used := Function.update w.used i true } := by
  obtain ⟨hnone, hqueue, hsink⟩ := (h.streams i).2.1 hu
  have hfam : Function.update w.family i {} = w.family := by
    have : w.family i = {} := by
      unfold family
      rw [hnone]
      rfl
    rw [← this, Function.update_eq_self]
  refine ⟨?_, streams_of_ends h.streams (i := i) (fun j hj => ?_) ?_⟩
  · have := h.pipes
    rw [← hfam] at this
    unfold family
    rw [family_update]
    exact this
  · simp only [ends, Function.update_of_ne hj]
  · unfold Streams
    simp only [Function.update_self]
    refine ⟨fun s hs => ?_, fun hu' => (nomatch hu'), (h.streams i).2.2⟩
    cases hs
    exact ⟨hqueue, hsink.symm⟩

theorem inv_arrive (h : Inv w) (i : ι) (bytes : List β) :
    Inv { w with queue := Function.update w.queue i (w.queue i ++ bytes)
                 arrived := Function.update w.arrived i (w.arrived i ++ bytes) } := by
  obtain ⟨hlive, hnew, hpre⟩ := h.streams i
  refine ⟨h.pipes, streams_of_ends h.streams (i := i) (fun j hj => ?_) ?_⟩
  · simp only [ends, Function.update_of_ne hj]
  · unfold Streams
    simp only [Function.update_self]
    refine ⟨fun s hs => ?_, fun hu => ?_, hpre.trans (List.prefix_append _ _)⟩
    · obtain ⟨htaken, hdelivered⟩ := hlive s hs
      exact ⟨by rw [← List.append_assoc, htaken], hdelivered⟩
    · obtain ⟨hnone, hqueue, hsink⟩ := hnew hu
      exact ⟨hnone, by rw [hqueue], hsink⟩

omit [DecidableEq ι] in
/-- The number of a `Splice` that exists is used. -/
theorem Streams.not_unused (h : w.Streams i) (hs : w.splices i = some s) : w.used i ≠ false := by
  intro hu
  rw [(h.2.1 hu).1] at hs
  cases hs

theorem inv_receiveFrom {get : GetNow} {ch : SpliceChoice} {r : Received β} (h : Inv w)
    (hs : w.splices i = some s) (hr : s.receiveFrom w.stock (w.queue i) get ch = .ok r) :
    Inv { w with stock := r.stock
                 splices := Function.update w.splices i (some r.splice)
                 queue := Function.update w.queue i r.queue } := by
  rw [← family_of hs] at hr
  obtain ⟨hp, htaken, hqueue, hdel⟩ := receiveFrom_sound h.pipes hr
  rw [family_of hs] at htaken hdel
  refine ⟨?_, streams_of_ends h.streams (i := i) (fun j hj => ?_) ?_⟩
  · unfold family
    rw [family_update]
    exact hp
  · simp only [ends, Function.update_of_ne hj]
  · unfold Streams
    simp only [Function.update_self]
    refine ⟨fun s' hs' => ?_, fun hu => ((h.streams i).not_unused hs hu).elim, (h.streams i).2.2⟩
    cases hs'
    rw [htaken, hdel, List.append_assoc, hqueue]
    exact (h.streams i).1 s hs

theorem inv_sendTo {ch : SpliceChoice} {r : Sent β} (h : Inv w) (hs : w.splices i = some s)
    (hr : s.sendTo w.stock ch = .ok r) :
    Inv { w with stock := r.stock
                 splices := Function.update w.splices i (some r.splice)
                 sink := Function.update w.sink i (w.sink i ++ r.moved) } := by
  rw [← family_of hs] at hr
  obtain ⟨hp, htaken, hdel⟩ := sendTo_sound h.pipes hr
  rw [family_of hs] at htaken hdel
  obtain ⟨hsource, hsink⟩ := (h.streams i).1 s hs
  have hbooks : r.splice.taken ++ w.queue i = w.arrived i ∧
      r.splice.delivered = w.sink i ++ r.moved := ⟨by rw [htaken, hsource], by rw [hdel, hsink]⟩
  -- the sink has a front of what was taken, which is a front of what arrived
  have hpre : w.sink i ++ r.moved <+: w.arrived i := by
    have hfifo := hp.fifo i
    rw [Function.update_self] at hfifo
    rw [← hbooks.1, ← hbooks.2]
    exact List.IsPrefix.trans ⟨_, hfifo⟩ (List.prefix_append _ _)
  refine ⟨?_, streams_of_ends h.streams (i := i) (fun j hj => ?_) ?_⟩
  · unfold family
    rw [family_update]
    exact hp
  · simp only [ends, Function.update_of_ne hj]
  · unfold Streams
    simp only [Function.update_self]
    refine ⟨fun s' hs' => ?_, fun hu => ((h.streams i).not_unused hs hu).elim, hpre⟩
    cases hs'
    exact hbooks

theorem inv_destroy (h : Inv w) (hs : w.splices i = some s) :
    Inv { w with stock := s.destroy w.stock, splices := Function.update w.splices i none } := by
  refine ⟨?_, streams_of_ends h.streams (i := i) (fun j hj => ?_) ?_⟩
  · have hp := destroy_sound h.pipes i
    rw [family_of hs] at hp
    unfold family
    rw [family_update]
    exact hp
  · simp only [ends, Function.update_of_ne hj]
  · unfold Streams
    simp only [Function.update_self]
    exact ⟨fun s' hs' => (nomatch hs'), fun hu => ((h.streams i).not_unused hs hu).elim,
      (h.streams i).2.2⟩

end Operations

/-- **Every operation keeps the invariant.** -/
theorem inv_step {w w' : Sharing ι β} {op : SharingOp ι β} (h : Inv w) (hs : step w op = some w') :
    Inv w' := by
  cases op with
  | construct i =>
      simp only [step] at hs
      split at hs
      · cases hs
      · rename_i hu
        cases hs
        exact inv_construct h ((Bool.not_eq_true _).mp hu)
  | arrive i bytes =>
      cases hs
      exact inv_arrive h i bytes
  | receiveFrom i get ch =>
      simp only [step] at hs
      split at hs
      · cases hs
      · rename_i s hsi
        split at hs
        · cases hs
          exact h
        · cases hs
        · rename_i r hr
          cases hs
          exact inv_receiveFrom h hsi hr
  | sendTo i ch =>
      simp only [step] at hs
      split at hs
      · cases hs
      · rename_i s hsi
        split at hs
        · cases hs
          exact h
        · cases hs
        · rename_i r hr
          cases hs
          exact inv_sendTo h hsi hr
  | destroy i =>
      simp only [step] at hs
      split at hs
      · cases hs
      · rename_i s hsi
        cases hs
        exact inv_destroy h hsi
  | discard k =>
      cases hs
      exact ⟨h.pipes.discard k, h.streams⟩

/-- **Shared pipes never leak.** After any interleaving of operations: idle pipes are empty; a pipe
is held by at most one `Splice`; `size` is the number of bytes in the pipe, and 0 without one; what
a `Splice` delivered, followed by what is in its pipe, is what it took from its own source, in
order. So the sink of every `Splice`, alive or destroyed, got only bytes of its own source, from
the first one on and in order. -/
theorem shared_pipes_never_leak {ops : List (SharingOp ι β)} {w : Sharing ι β}
    (h : Machine.run step {} ops = some w) :
    (∀ p ∈ w.stock.idle, w.stock.content p = []) ∧
    (∀ i j s t p, w.splices i = some s → w.splices j = some t → s.pipe = some p →
      t.pipe = some p → i = j) ∧
    (∀ i s, w.splices i = some s → (s.pipe = none → s.size = 0) ∧
      ∀ p, s.pipe = some p → s.size = (w.stock.content p).length) ∧
    (∀ i s, w.splices i = some s → w.sink i = s.delivered ∧
      s.delivered ++ s.inPipe w.stock = s.taken ∧ s.taken ++ w.queue i = w.arrived i) ∧
    ∀ i, w.sink i <+: w.arrived i := by
  have hinv : Inv w := Machine.invariant (fun _ _ _ hI hs => inv_step hI hs) inv_empty h
  refine ⟨hinv.pipes.pool.idle_empty, ?_, ?_, ?_, fun i => (hinv.streams i).2.2⟩
  · intro i j s t p hi hj hs ht
    exact hinv.pipes.pool.held_inj i j p (by rw [family_of hi]; exact hs)
      (by rw [family_of hj]; exact ht)
  · intro i s hi
    have hsize := hinv.pipes.size i
    rw [family_of hi] at hsize
    refine ⟨fun hp => ?_, fun p hp => ?_⟩
    · rw [hsize, Splice.inPipe_none hp]
      rfl
    · rw [hsize, Splice.inPipe_some hp]
  · intro i s hi
    have hfifo := hinv.pipes.fifo i
    rw [family_of hi] at hfifo
    obtain ⟨h1, h2⟩ := (hinv.streams i).1 s hi
    exact ⟨h2.symm, hfifo, h1⟩

/-- Two `Splice`s using one pipe in turn, the first with a short `splice()` on either side; the
second one dies with bytes in the pipe. -/
def recycledPipe : List (SharingOp ℕ UInt8) :=
  [.construct 0, .construct 1, .arrive 0 [1, 2, 3], .arrive 1 [7, 8],
    .receiveFrom 0 .create (.upTo 1), .sendTo 0 (.upTo 0), .sendTo 0 .again, .sendTo 0 (.upTo 5),
    .receiveFrom 1 (.idle 0) (.upTo 9), .sendTo 1 (.upTo 0), .destroy 1, .receiveFrom 0 .create .zero]

theorem recycled_pipe_never_leaks :
    ∃ w, Machine.run step {} recycledPipe = some w ∧ w.sink 0 = [1, 2] ∧ w.sink 1 = [7] ∧
      w.stock.idle = [1] ∧ (∀ p ∈ w.stock.idle, w.stock.content p = []) ∧
        ∀ i, w.sink i <+: w.arrived i := by
  refine ⟨_, rfl, rfl, rfl, rfl, ?_⟩
  have h := shared_pipes_never_leak (show Machine.run step {} recycledPipe = some _ from rfl)
  exact ⟨h.1, h.2.2.2.2⟩

end Sharing

end UoLogin
