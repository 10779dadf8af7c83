import Mathlib.Logic.Function.Basic

set_option autoImplicit false

/-!
# Guarded machines and their runs

A machine steps by a partial function: `step s e = none` says that the event `e` is not enabled
in `s`. A run is a list of enabled events.

* `run`, `run_append`, `run_snoc`: runs and how they compose.
* `Along C s es`, `along_iff`: every event of the run of `es` from `s` meets the condition `C`, which
  may read the state the event finds.
* **`invariant_along`**: an invariant that every step meeting `C` keeps holds after every run
  along `C`; **`invariant`** is the case of no condition;
* **`invariant_iff_along`**: an invariant that the steps meeting `C` keep, and no others, holds in all
  states of a run exactly if the run is along `C`.
-/

namespace Machine

variable {σ ε : Type*}

/-- Run the events in order; `none` when one of them is not enabled. -/
def run (step : σ → ε → Option σ) : σ → List ε → Option σ
  | s, [] => some s
  | s, e :: es => (step s e).bind fun s' => run step s' es

variable {step : σ → ε → Option σ}

theorem run_cons (s : σ) (e : ε) (es : List ε) :
    run step s (e :: es) = (step s e).bind fun s' => run step s' es := rfl

theorem run_append (s : σ) (es fs : List ε) :
    run step s (es ++ fs) = (run step s es).bind fun s' => run step s' fs := by
  induction es generalizing s with
  | nil => rfl
  | cons e es ih =>
      rw [List.cons_append, run_cons, run_cons, Option.bind_assoc]
      exact congrArg _ (funext fun s' => ih s')

theorem run_snoc (s : σ) (es : List ε) (e : ε) :
    run step s (es ++ [e]) = (run step s es).bind fun s' => step s' e := by
  rw [run_append]
  refine congrArg _ (funext fun s' => ?_)
  rw [run_cons]
  exact Option.bind_fun_some _

/-- Every event of the run of `es` from `s` meets `C` in the state it finds. -/
def Along (step : σ → ε → Option σ) (C : σ → ε → Prop) : σ → List ε → Prop
  | _, [] => True
  | s, e :: es => C s e ∧ ∀ s', step s e = some s' → Along step C s' es

/-- A condition that the events meet in every state. -/
theorem along_of_forall {C : σ → ε → Prop} {es : List ε} (h : ∀ e ∈ es, ∀ s, C s e) (s : σ) :
    Along step C s es := by
  induction es generalizing s with
  | nil => trivial
  | cons e es ih =>
      exact ⟨h e List.mem_cons_self s, fun s' _ => ih (fun e he => h e (List.mem_cons_of_mem _ he)) s'⟩

/-- The condition, at every event of the run. -/
theorem along_iff {C : σ → ε → Prop} {s : σ} {es : List ε} :
    Along step C s es ↔ ∀ pre e post t, es = pre ++ e :: post → run step s pre = some t → C t e := by
  induction es generalizing s with
  | nil =>
      refine iff_of_true trivial fun pre e post t h => ?_
      cases pre <;> cases h
  | cons e es ih =>
      constructor
      · rintro ⟨he, hrest⟩ pre e' post t h hrun
        cases pre with
        | nil =>
            cases h
            cases hrun
            exact he
        | cons x pre =>
            cases h
            obtain ⟨s', hs', hrun⟩ := Option.bind_eq_some_iff.mp hrun
            exact ih.mp (hrest s' hs') pre e' post t rfl hrun
      · intro hall
        refine ⟨hall [] e es s rfl rfl, fun s' hs' => ih.mpr fun pre e' post t h hrun => ?_⟩
        refine hall (e :: pre) e' post t (congrArg (e :: ·) h) ?_
        rw [run_cons, hs']
        exact hrun

/-- **Invariants of conditioned runs.** What the start satisfies and every step meeting `C` keeps
holds after every run along `C`. -/
theorem invariant_along {C : σ → ε → Prop} {I : σ → Prop}
    (hstep : ∀ s e s', I s → C s e → step s e = some s' → I s') {s s' : σ} {es : List ε}
    (hs : I s) (hC : Along step C s es) (h : run step s es = some s') : I s' := by
  induction es generalizing s with
  | nil =>
      cases h
      exact hs
  | cons e es ih =>
      rw [run_cons] at h
      obtain ⟨t, ht, hr⟩ := Option.bind_eq_some_iff.mp h
      exact ih (hstep s e t hs hC.1 ht) (hC.2 t ht) hr

/-- **Invariants of runs.** -/
theorem invariant {I : σ → Prop} (hstep : ∀ s e s', I s → step s e = some s' → I s') {s s' : σ}
    {es : List ε} (hs : I s) (h : run step s es = some s') : I s' :=
  invariant_along (C := fun _ _ => True) (fun s e s' hI _ => hstep s e s' hI) hs
    (along_of_forall (fun _ _ _ => trivial) s) h

/-- The beginning of a run along `C`. -/
theorem along_of_append {C : σ → ε → Prop} {s : σ} {es fs : List ε} (h : Along step C s (es ++ fs)) :
    Along step C s es := by
  rw [along_iff] at h ⊢
  rintro pre e post t rfl
  exact h pre e (post ++ fs) t (by simp)

/-- **Exact conditions.** `R` is an invariant of all runs, which may help to show what a step does
to `I`. -/
theorem invariant_iff_along {C : σ → ε → Prop} {R I : σ → Prop} {s s' : σ} {es : List ε}
    (hR : R s) (hRstep : ∀ t e t', R t → step t e = some t' → R t') (hI : I s)
    (hIstep : ∀ t e t', R t → I t → step t e = some t' → (I t' ↔ C t e))
    (h : run step s es = some s') :
    (∀ pre t, pre <+: es → run step s pre = some t → I t) ↔ Along step C s es := by
  constructor
  · intro hall
    rw [along_iff]
    rintro pre e post t rfl ht
    -- the run goes on with this event
    rw [run_append, ht, Option.bind_some, run_cons] at h
    obtain ⟨t', ht', -⟩ := Option.bind_eq_some_iff.mp h
    have hbefore : I t := hall pre t ⟨e :: post, rfl⟩ ht
    have hafter : I t' := by
      refine hall (pre ++ [e]) t' ⟨post, by simp⟩ ?_
      rw [run_snoc, ht]
      exact ht'
    exact (hIstep t e t' (invariant hRstep hR ht) hbefore ht').mp hafter
  · rintro halong pre t ⟨rest, rfl⟩ ht
    refine (invariant_along (I := fun t => R t ∧ I t) (fun t e t' hinv hC hs => ?_) ⟨hR, hI⟩
      (along_of_append halong) ht).2
    exact ⟨hRstep t e t' hinv.1 hs, (hIstep t e t' hinv.1 hinv.2 hs).mpr hC⟩

end Machine
