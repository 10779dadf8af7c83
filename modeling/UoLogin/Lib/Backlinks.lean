import UoLogin.Lib.Heap

set_option autoImplicit false

/-!
# Lists of members with pointers back

The objects of one heap, the owners, hold lists of pointers to members; the members live in another heap
and point back to their owner, if they have one. `Backlinks` says that the two agree: a member is in the
list of exactly the owner that it points to, once, and this owner exists.

* `Backlinks.register`, `Backlinks.unregister`: a new member, and a member that goes;
* `Backlinks.modify`, `Backlinks.modifyMember`: changes that leave the lists and the pointers alone;
* `Backlinks.insert`, `Backlinks.retain`: owners come and go without members.
-/

section

variable {α β : Type*} {members : α → List ℕ} {owner : β → Option ℕ} {H : Heap α} {K : Heap β} {a : α}
  {b : β} {p i : ℕ} {f : α → α} {g : β → β} {keep : α → Bool}

structure Backlinks (members : α → List ℕ) (owner : β → Option ℕ) (H : Heap α) (K : Heap β) : Prop where
  links : ∀ p a, H.get p = some a → ∀ i, i ∈ members a ↔ ∃ b, K.get i = some b ∧ owner b = some p
  nodup : ∀ p a, H.get p = some a → (members a).Nodup
  valid : ∀ i b p, K.get i = some b → owner b = some p → ∃ a, H.get p = some a

namespace Backlinks

theorem empty : Backlinks members owner Heap.empty Heap.empty where
  links _ _ h := by cases h
  nodup _ _ h := by cases h
  valid _ _ _ h := by cases h

theorem insert (h : Backlinks members owner H K) (ha : members a = []) :
    Backlinks members owner (H.alloc a) K where
  links p a' hp i := by
    rcases Heap.get_alloc_eq_some.mp hp with ⟨rfl, rfl⟩ | hp
    · -- nobody points to a new owner
      simp only [ha, List.not_mem_nil, false_iff]
      rintro ⟨b, hb, ho⟩
      obtain ⟨a', ha'⟩ := h.valid i b _ hb ho
      exact Heap.ne_allocated ha' rfl
    · exact h.links p a' hp i
  nodup p a' hp := by
    rcases Heap.get_alloc_eq_some.mp hp with ⟨rfl, rfl⟩ | hp
    · rw [ha]
      exact List.nodup_nil
    · exact h.nodup p a' hp
  valid i b p hb ho := by
    obtain ⟨a', ha'⟩ := h.valid i b p hb ho
    exact ⟨a', Heap.get_alloc_of_some ha' a⟩

theorem modify (h : Backlinks members owner H K) (p : ℕ) (hf : ∀ a, members (f a) = members a) :
    Backlinks members owner (H.modify p f) K where
  links q a' hq i := by
    rcases Heap.get_modify_eq_some.mp hq with ⟨rfl, a, ha, rfl⟩ | ⟨-, hq⟩
    · rw [hf]
      exact h.links q a ha i
    · exact h.links q a' hq i
  nodup q a' hq := by
    rcases Heap.get_modify_eq_some.mp hq with ⟨rfl, a, ha, rfl⟩ | ⟨-, hq⟩
    · rw [hf]
      exact h.nodup q a ha
    · exact h.nodup q a' hq
  valid i b q hb ho := by
    obtain ⟨a, ha⟩ := h.valid i b q hb ho
    rw [Heap.get_modify, ha]
    split <;> exact ⟨_, rfl⟩

theorem modifyMember (h : Backlinks members owner H K) (i : ℕ) (hg : ∀ b, owner (g b) = owner b) :
    Backlinks members owner H (K.modify i g) where
  links p a hp j := by
    rw [h.links p a hp j]
    constructor
    · rintro ⟨b, hb, ho⟩
      by_cases hj : j = i
      · subst hj
        exact ⟨g b, Heap.get_modify_eq_some.mpr (.inl ⟨rfl, b, hb, rfl⟩), (hg b).trans ho⟩
      · exact ⟨b, Heap.get_modify_eq_some.mpr (.inr ⟨hj, hb⟩), ho⟩
    · rintro ⟨b, hb, ho⟩
      rcases Heap.get_modify_eq_some.mp hb with ⟨rfl, b', hb', rfl⟩ | ⟨-, hb'⟩
      · exact ⟨b', hb', (hg b').symm.trans ho⟩
      · exact ⟨b, hb', ho⟩
  nodup := h.nodup
  valid j b p hb ho := by
    rcases Heap.get_modify_eq_some.mp hb with ⟨rfl, b', hb', rfl⟩ | ⟨-, hb'⟩
    · exact h.valid j b' p hb' ((hg b').symm.trans ho)
    · exact h.valid j b p hb' ho

/-- A new member without an owner. -/
theorem alloc (h : Backlinks members owner H K) (hb : owner b = none) :
    Backlinks members owner H (K.alloc b) where
  links p a hp i := by
    rw [h.links p a hp i]
    constructor
    · rintro ⟨b', hb', ho⟩
      exact ⟨b', Heap.get_alloc_of_some hb' b, ho⟩
    · rintro ⟨b', hb', ho⟩
      rcases Heap.get_alloc_eq_some.mp hb' with ⟨rfl, rfl⟩ | hb'
      · cases hb.symm.trans ho
      · exact ⟨b', hb', ho⟩
  nodup := h.nodup
  valid i b' p hb' ho := by
    rcases Heap.get_alloc_eq_some.mp hb' with ⟨rfl, rfl⟩ | hb'
    · cases hb.symm.trans ho
    · exact h.valid i b' p hb' ho

/-- A new member that is added to the list of its owner. -/
theorem register (h : Backlinks members owner H K) (hp : H.get p = some a) (hb : owner b = some p)
    (hf : ∀ a, members (f a) = members a ++ [K.allocated]) :
    Backlinks members owner (H.modify p f) (K.alloc b) where
  links q a' hq i := by
    rcases Heap.get_modify_eq_some.mp hq with ⟨rfl, a, ha, rfl⟩ | ⟨hne, hq⟩
    · rw [hf, List.mem_append, List.mem_singleton, h.links q a ha i]
      constructor
      · rintro (⟨b', hb', ho⟩ | rfl)
        · exact ⟨b', Heap.get_alloc_of_some hb' b, ho⟩
        · exact ⟨b, Heap.get_alloc_self K b, hb⟩
      · rintro ⟨b', hb', ho⟩
        rcases Heap.get_alloc_eq_some.mp hb' with ⟨rfl, rfl⟩ | hb'
        · exact .inr rfl
        · exact .inl ⟨b', hb', ho⟩
    · rw [h.links q a' hq i]
      constructor
      · rintro ⟨b', hb', ho⟩
        exact ⟨b', Heap.get_alloc_of_some hb' b, ho⟩
      · rintro ⟨b', hb', ho⟩
        rcases Heap.get_alloc_eq_some.mp hb' with ⟨rfl, rfl⟩ | hb'
        · exact (hne (Option.some.inj (ho.symm.trans hb))).elim
        · exact ⟨b', hb', ho⟩
  nodup q a' hq := by
    rcases Heap.get_modify_eq_some.mp hq with ⟨rfl, a, ha, rfl⟩ | ⟨-, hq⟩
    · -- the pointer of the new member is new
      have hnew : K.allocated ∉ members a := by
        intro hmem
        obtain ⟨b', hb', -⟩ := (h.links q a ha _).mp hmem
        exact Heap.ne_allocated hb' rfl
      rw [hf]
      refine List.nodup_append.mpr ⟨h.nodup q a ha, List.nodup_singleton _, ?_⟩
      rintro x hx y hy rfl
      rw [List.mem_singleton.mp hy] at hx
      exact hnew hx
    · exact h.nodup q a' hq
  valid i b' q hb' ho := by
    have hexists : ∃ a', H.get q = some a' := by
      rcases Heap.get_alloc_eq_some.mp hb' with ⟨rfl, rfl⟩ | hb'
      · cases hb.symm.trans ho
        exact ⟨a, hp⟩
      · exact h.valid i b' q hb' ho
    obtain ⟨a', ha'⟩ := hexists
    rw [Heap.get_modify, ha']
    split <;> exact ⟨_, rfl⟩

/-- A member without an owner goes. -/
theorem free (h : Backlinks members owner H K) (hi : K.get i = some b) (hb : owner b = none) :
    Backlinks members owner H (K.free i) where
  links p a hp j := by
    rw [h.links p a hp j]
    constructor
    · rintro ⟨b', hb', ho⟩
      refine ⟨b', Heap.get_free_eq_some.mpr ⟨?_, hb'⟩, ho⟩
      rintro rfl
      cases hi.symm.trans hb'
      cases hb.symm.trans ho
    · rintro ⟨b', hb', ho⟩
      exact ⟨b', (Heap.get_free_eq_some.mp hb').2, ho⟩
  nodup := h.nodup
  valid j b' p hb' := h.valid j b' p (Heap.get_free_eq_some.mp hb').2

/-- A member goes and is taken from the list of its owner. -/
theorem unregister (h : Backlinks members owner H K) (hi : K.get i = some b) (hb : owner b = some p)
    (hf : ∀ a, members (f a) = (members a).erase i) :
    Backlinks members owner (H.modify p f) (K.free i) where
  links q a' hq j := by
    rcases Heap.get_modify_eq_some.mp hq with ⟨rfl, a, ha, rfl⟩ | ⟨hne, hq⟩
    · rw [hf, (h.nodup q a ha).mem_erase_iff, h.links q a ha j]
      constructor
      · rintro ⟨hj, b', hb', ho⟩
        exact ⟨b', Heap.get_free_eq_some.mpr ⟨hj, hb'⟩, ho⟩
      · rintro ⟨b', hb', ho⟩
        exact ⟨(Heap.get_free_eq_some.mp hb').1, b', (Heap.get_free_eq_some.mp hb').2, ho⟩
    · rw [h.links q a' hq j]
      constructor
      · rintro ⟨b', hb', ho⟩
        refine ⟨b', Heap.get_free_eq_some.mpr ⟨?_, hb'⟩, ho⟩
        rintro rfl
        cases hi.symm.trans hb'
        exact hne (Option.some.inj (ho.symm.trans hb))
      · rintro ⟨b', hb', ho⟩
        exact ⟨b', (Heap.get_free_eq_some.mp hb').2, ho⟩
  nodup q a' hq := by
    rcases Heap.get_modify_eq_some.mp hq with ⟨rfl, a, ha, rfl⟩ | ⟨-, hq⟩
    · rw [hf]
      exact (h.nodup q a ha).erase i
    · exact h.nodup q a' hq
  valid j b' q hb' ho := by
    obtain ⟨a, ha⟩ := h.valid j b' q (Heap.get_free_eq_some.mp hb').2 ho
    rw [Heap.get_modify, ha]
    split <;> exact ⟨_, rfl⟩

/-- Owners without members go. -/
theorem retain (h : Backlinks members owner H K)
    (hkeep : ∀ a, keep a = false → members a = []) : Backlinks members owner (H.retain keep) K where
  links p a hp := h.links p a (Heap.get_retain_eq_some.mp hp).1
  nodup p a hp := h.nodup p a (Heap.get_retain_eq_some.mp hp).1
  valid i b p hb ho := by
    obtain ⟨a, ha⟩ := h.valid i b p hb ho
    refine ⟨a, Heap.get_retain_eq_some.mpr ⟨ha, ?_⟩⟩
    by_contra hk
    have hmem := (h.links p a ha i).mpr ⟨b, hb, ho⟩
    rw [hkeep a ((Bool.not_eq_true _).mp hk)] at hmem
    cases hmem

end Backlinks

end
