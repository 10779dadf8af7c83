import Mathlib.Data.List.Induction
import UoLogin.Lib.Machine

set_option autoImplicit false

/-!
# What a machine puts out

`out s e` is what a machine does to its surroundings when it handles the event `e` in the state `s`.

* `outputs`, `outputs_snoc`: what it has done in a run;
* **`invariant_outputs`**: invariants that also speak about what was done.
-/

namespace Machine

variable {σ ε β : Type*} {step : σ → ε → Option σ} {out : σ → ε → List β}

/-- Everything that is put out as long as the events are enabled. -/
def outputs (step : σ → ε → Option σ) (out : σ → ε → List β) : σ → List ε → List β
  | _, [] => []
  | s, e :: es => out s e ++ ((step s e).map fun s' => outputs step out s' es).getD []

theorem outputs_cons {s s' : σ} {e : ε} (hs : step s e = some s') (es : List ε) :
    outputs step out s (e :: es) = out s e ++ outputs step out s' es := by
  rw [outputs, hs]
  rfl

theorem outputs_snoc {s t : σ} {es : List ε} (h : run step s es = some t) (e : ε) :
    outputs step out s (es ++ [e]) = outputs step out s es ++ out t e := by
  induction es generalizing s with
  | nil =>
      cases h
      cases hs : step t e with
      | none | some => simp [outputs, hs]
  | cons x es ih =>
      obtain ⟨s', hs', hrest⟩ := Option.bind_eq_some_iff.mp h
      rw [List.cons_append, outputs_cons hs', outputs_cons hs', ih hrest, List.append_assoc]

variable (out) in
/-- **Invariants with what was put out**, and with the events so far. -/
theorem invariant_outputs {I : List ε → List β → σ → Prop}
    (hstep : ∀ es bs s e s', I es bs s → step s e = some s' → I (es ++ [e]) (bs ++ out s e) s')
    {s s' : σ} {es : List ε} (hs : I [] [] s) (h : run step s es = some s') :
    I es (outputs step out s es) s' := by
  induction es using List.reverseRecOn generalizing s' with
  | nil =>
      cases h
      exact hs
  | append_singleton es e ih =>
      rw [run_snoc] at h
      obtain ⟨t, ht, he⟩ := Option.bind_eq_some_iff.mp h
      rw [outputs_snoc ht]
      exact hstep es _ t e s' (ih ht) he

end Machine
