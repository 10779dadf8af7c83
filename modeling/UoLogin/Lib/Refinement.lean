import Mathlib.Data.List.Induction
import UoLogin.Lib.Machine

set_option autoImplicit false

/-!
# Machines that are put together from parts

A machine projects to a part of it if each of its steps does a run of the part, of any length. Since the
part may be dismantled in the end, this is only asked of the steps that end in `P`, and these must have
begun in `P`.

* `Projection`, **`Projection.run`**: the runs of a machine that end in `P` are runs of its parts;
* **`Projection.trans`**: a part of a part is a part;
* `Projection.invariant`: what a part keeps by itself holds in the machine;
* `invariant_history`: invariants that also speak about the events of the run so far.
-/

namespace Machine

variable {σ τ υ ε δ ι : Type*} {step : σ → ε → Option σ} {step' : τ → δ → Option τ}
  {step'' : υ → ι → Option υ} {f : σ → τ} {g : τ → υ} {I P : σ → Prop} {J Q : τ → Prop}

/-- `f` is the state of the part; `I` is an invariant of the machine that helps to show what it does. -/
structure Projection (step : σ → ε → Option σ) (step' : τ → δ → Option τ) (f : σ → τ) (I P : σ → Prop) :
    Prop where
  keeps : ∀ s e s', I s → step s e = some s' → I s'
  back : ∀ s e s', I s → step s e = some s' → P s' → P s
  step : ∀ s e s', I s → P s → step s e = some s' → P s' → ∃ ds, run step' (f s) ds = some (f s')

/-- **A run of the machine is a run of the part.** -/
theorem Projection.run (h : Projection step step' f I P) {s s' : σ} {es : List ε} (hs : I s)
    (hrun : Machine.run step s es = some s') (hP : P s') :
    I s' ∧ P s ∧ ∃ ds, Machine.run step' (f s) ds = some (f s') := by
  induction es generalizing s with
  | nil =>
      cases hrun
      exact ⟨hs, hP, [], rfl⟩
  | cons e es ih =>
      obtain ⟨t, ht, hrest⟩ := Option.bind_eq_some_iff.mp hrun
      obtain ⟨hI, hPt, ds', hds'⟩ := ih (h.keeps s e t hs ht) hrest
      have hPs := h.back s e t hs ht hPt
      obtain ⟨ds, hds⟩ := h.step s e t hs hPs ht hPt
      refine ⟨hI, hPs, ds ++ ds', ?_⟩
      rw [run_append, hds]
      exact hds'

/-- **A part of a part.** -/
theorem Projection.trans (h : Projection step step' f I P) (h' : Projection step' step'' g J Q)
    (hJ : ∀ s, I s → P s → J (f s)) (hQ : ∀ s, I s → P s → Q (f s)) :
    Projection step step'' (fun s => g (f s)) I P where
  keeps := h.keeps
  back := h.back
  step := by
    intro s e s' hI hP hs hP'
    obtain ⟨ds, hds⟩ := h.step s e s' hI hP hs hP'
    obtain ⟨-, -, is, his⟩ := h'.run (hJ s hI hP) hds (hQ s' (h.keeps s e s' hI hs) hP')
    exact ⟨is, his⟩

/-- **What the part keeps by itself.** -/
theorem Projection.invariant (h : Projection step step' f I P) {K : τ → Prop}
    (hK : ∀ t d t', K t → step' t d = some t' → K t') {s s' : σ} {es : List ε} (hs : I s) (hKs : K (f s))
    (hrun : Machine.run step s es = some s') (hP : P s') : K (f s') := by
  obtain ⟨-, -, ds, hds⟩ := h.run hs hrun hP
  exact Machine.invariant hK hKs hds

/-- **Invariants with a history.** `I` may speak about the events so far. -/
theorem invariant_history {I : List ε → σ → Prop}
    (hstep : ∀ es s e s', I es s → step s e = some s' → I (es ++ [e]) s') {s s' : σ} {es : List ε}
    (hs : I [] s) (h : run step s es = some s') : I es s' := by
  induction es using List.reverseRecOn generalizing s' with
  | nil =>
      cases h
      exact hs
  | append_singleton es e ih =>
      rw [run_snoc] at h
      obtain ⟨t, ht, he⟩ := Option.bind_eq_some_iff.mp h
      exact hstep es t e s' (ih ht) he

end Machine
