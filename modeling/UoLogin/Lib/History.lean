import Mathlib.Data.List.Basic

set_option autoImplicit false

/-!
# Histories

A history is a list of entries, the oldest first, that only grows. `Every C log` says that each entry
meets `C`, which may read the entries before it.

* `every_append`, `every_cons`: how a history grows;
* `every_of_forall`: entries that meet `C` whatever was before them.

`Since start stop log` says that something has started and not stopped since.

* **`since_snoc`**, `since_append`: what the last entries say about it.
-/

namespace History

variable {α : Type*} {C : List α → α → Prop} {as bs log : List α} {a : α}

def Every (C : List α → α → Prop) (log : List α) : Prop :=
  ∀ pre a post, log = pre ++ a :: post → C pre a

theorem every_nil : Every C [] := by
  intro pre a post h
  cases pre <;> cases h

theorem every_cons : Every C (a :: bs) ↔ C [] a ∧ Every (fun pre => C (a :: pre)) bs := by
  constructor
  · intro h
    refine ⟨h [] a bs rfl, fun pre b post hb => ?_⟩
    exact h (a :: pre) b post (congrArg (a :: ·) hb)
  · rintro ⟨ha, hbs⟩ pre b post h
    cases pre with
    | nil =>
        cases h
        exact ha
    | cons x pre =>
        cases h
        exact hbs pre b post rfl

theorem every_append :
    Every C (as ++ bs) ↔ Every C as ∧ Every (fun pre => C (as ++ pre)) bs := by
  induction as generalizing C with
  | nil => exact ⟨fun h => ⟨every_nil, h⟩, fun h => h.2⟩
  | cons a as ih =>
      rw [List.cons_append, every_cons, every_cons, ih, and_assoc]
      exact Iff.rfl

theorem every_of_forall (h : ∀ a ∈ log, ∀ pre, C pre a) : Every C log := by
  intro pre a post hlog
  exact h a (hlog ▸ List.mem_append_right _ List.mem_cons_self) pre

section Since

variable {start stop : α → Prop}

def Since (start stop : α → Prop) (log : List α) : Prop :=
  ∃ pre a post, log = pre ++ a :: post ∧ start a ∧ ∀ b ∈ post, ¬ stop b

theorem not_since_nil : ¬ Since start stop [] := by
  rintro ⟨pre, a, post, h, -⟩
  cases pre <;> cases h

theorem since_snoc : Since start stop (log ++ [a]) ↔ start a ∨ Since start stop log ∧ ¬ stop a := by
  constructor
  · rintro ⟨pre, b, post, h, hstart, hpost⟩
    rcases List.eq_nil_or_concat post with rfl | ⟨post, c, rfl⟩
    · obtain ⟨-, hab⟩ := List.append_inj' h rfl
      cases hab
      exact .inl hstart
    · rw [List.concat_eq_append] at h hpost
      rw [← List.cons_append, ← List.append_assoc] at h
      obtain ⟨rfl, hac⟩ := List.append_inj' h rfl
      cases hac
      refine .inr ⟨⟨pre, b, post, rfl, hstart, fun c hc => hpost c ?_⟩, hpost a ?_⟩
      · exact List.mem_append_left _ hc
      · exact List.mem_append_right _ (List.mem_singleton_self a)
  · rintro (hstart | ⟨⟨pre, b, post, rfl, hstart, hpost⟩, hstop⟩)
    · exact ⟨log, a, [], rfl, hstart, by simp⟩
    · refine ⟨pre, b, post ++ [a], by simp, hstart, fun c hc => ?_⟩
      rcases List.mem_append.mp hc with hc | hc
      · exact hpost c hc
      · rw [List.mem_singleton.mp hc]
        exact hstop

/-- Entries that start nothing. -/
theorem since_append (h : ∀ b ∈ bs, ¬ start b) :
    Since start stop (log ++ bs) ↔ Since start stop log ∧ ∀ b ∈ bs, ¬ stop b := by
  induction bs generalizing log with
  | nil => simp
  | cons b bs ih =>
      have hb : ¬ start b := h b List.mem_cons_self
      have hsplit : log ++ b :: bs = (log ++ [b]) ++ bs := by simp
      rw [hsplit, ih fun c hc => h c (List.mem_cons_of_mem b hc), since_snoc]
      simp only [hb, false_or, and_assoc, List.forall_mem_cons]

end Since

end History
