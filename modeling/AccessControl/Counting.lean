namespace AccessControl

open List

theorem length_filter_le_of_imp {p q : α → Bool} {l : List α} (imp : ∀ a ∈ l, p a = true → q a = true) :
    (l.filter p).length ≤ (l.filter q).length := by
  rw [← countP_eq_length_filter, ← countP_eq_length_filter]
  exact countP_mono_left imp

theorem length_filter_lt_of_imp {p q : α → Bool} {l : List α} {a : α}
    (imp : ∀ b ∈ l, p b = true → q b = true) (member : a ∈ l) (after : q a = true) (before : p a = false) :
    (l.filter p).length < (l.filter q).length := by
  induction l with
  | nil => simp at member
  | cons head tail ih =>
    have tailImp : ∀ b ∈ tail, p b = true → q b = true := fun b h => imp b (mem_cons_of_mem _ h)
    rcases mem_cons.mp member with rfl | inTail
    · have le := length_filter_le_of_imp tailImp
      simp only [filter_cons, before, after, if_true, Bool.false_eq_true, if_false, length_cons]
      omega
    · have lt := ih tailImp inTail
      by_cases heads : p head = true
      · simp only [filter_cons, heads, imp head mem_cons_self heads, if_true, length_cons]
        omega
      · have := Bool.eq_false_iff.mpr heads
        simp only [filter_cons, this, Bool.false_eq_true, if_false]
        split
        · simp only [length_cons]
          omega
        · exact lt

end AccessControl
