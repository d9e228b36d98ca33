import Mathlib.Data.List.Basic

/-!
# What sorting leaves in place

The catalog, a report's items and the numbers of a stem are all put in order by `List.mergeSort`,
which is stable.  Two consequences are used throughout.

* `filter_mergeSort` — to choose from what is sorted is to sort what is chosen, so it makes no
  difference on which side of the sorting a selection stands.
* `filter_mergeSort_of_ties` — what compares equal keeps its places.

`pairwise_mergeSort_key` and `filter_mergeSort_key` are for sorting by a number of each element.
-/

set_option autoImplicit false

namespace MaterialInspection.Sorting

variable {α : Type} {le : α → α → Bool}

/-- A list is cut in one way only into elements with a property and elements without it. -/
theorem cut_unique {p : α → Bool} {a b a' b' : List α} (h : a ++ b = a' ++ b')
    (ha : ∀ x ∈ a, p x = true) (hb : ∀ x ∈ b, p x = false)
    (ha' : ∀ x ∈ a', p x = true) (hb' : ∀ x ∈ b', p x = false) : a = a' ∧ b = b' := by
  have front : ∀ {l m : List α}, (∀ x ∈ l, p x = true) → (∀ x ∈ m, p x = false) →
      (l ++ m).takeWhile p = l := by
    intro l m hl hm
    rw [List.takeWhile_append_of_pos hl]
    cases m with
    | nil => simp
    | cons x m => simp [hm x List.mem_cons_self]
  have hfront : a = a' := by rw [← front ha hb, h, front ha' hb']
  subst hfront
  exact ⟨rfl, List.append_cancel_left h⟩

variable (trans : ∀ a b c, le a b = true → le b c = true → le a c = true)
  (total : ∀ a b, (le a b || le b a) = true)

include trans total

/-- **Choosing from a sorted list is sorting what is chosen.** -/
theorem filter_mergeSort (p : α → Bool) (l : List α) :
    (l.mergeSort le).filter p = (l.filter p).mergeSort le := by
  induction l with
  | nil => simp
  | cons a l ih =>
    obtain ⟨front, back, hsorted, hrest, hfront⟩ := List.mergeSort_cons trans total a l
    rw [hrest, List.filter_append] at ih
    cases ha : p a with
    | false =>
      rw [hsorted, List.filter_append, List.filter_cons_of_neg (by simp [ha]),
        List.filter_cons_of_neg (by simp [ha]), ih]
    | true =>
      -- the new element goes to the same place among all and among the chosen
      obtain ⟨front', back', hsorted', hrest', hfront'⟩ :=
        List.mergeSort_cons trans total a (l.filter p)
      have hback : ∀ b ∈ back, le a b = true := by
        have hpair := List.pairwise_mergeSort trans total (a :: l)
        rw [hsorted] at hpair
        exact (List.pairwise_cons.1 (List.pairwise_append.1 hpair).2.1).1
      have hback' : ∀ b ∈ back', le a b = true := by
        have hpair := List.pairwise_mergeSort trans total (a :: l.filter p)
        rw [hsorted'] at hpair
        exact (List.pairwise_cons.1 (List.pairwise_append.1 hpair).2.1).1
      obtain ⟨hf, hb⟩ := cut_unique (p := fun b => !le a b) (ih.trans hrest')
        (fun b hmem => hfront b (List.mem_filter.1 hmem).1)
        (fun b hmem => by rw [hback b (List.mem_filter.1 hmem).1]; rfl)
        hfront' (fun b hmem => by rw [hback' b hmem]; rfl)
      rw [hsorted, List.filter_append, List.filter_cons_of_pos ha, List.filter_cons_of_pos ha,
        hsorted', hf, hb]

/-- **What compares equal keeps its places.** -/
theorem filter_mergeSort_of_ties {p : α → Bool} {l : List α}
    (ties : ∀ a b, p a = true → p b = true → le a b = true) :
    (l.mergeSort le).filter p = l.filter p := by
  rw [filter_mergeSort trans total]
  apply List.mergeSort_of_pairwise
  refine List.pairwise_iff_forall_sublist.2 fun {a b} hsub => ?_
  have ha := hsub.subset List.mem_cons_self
  have hb := hsub.subset (List.mem_cons_of_mem a List.mem_cons_self)
  exact ties a b (List.mem_filter.1 ha).2 (List.mem_filter.1 hb).2

omit trans total

/-! ## Sorting by a number -/

theorem key_trans (key : α → Int) (a b c : α) (hab : decide (key a ≤ key b) = true)
    (hbc : decide (key b ≤ key c) = true) : decide (key a ≤ key c) = true := by
  rw [decide_eq_true_eq] at *
  exact Int.le_trans hab hbc

theorem key_total (key : α → Int) (a b : α) :
    (decide (key a ≤ key b) || decide (key b ≤ key a)) = true := by
  rw [Bool.or_eq_true, decide_eq_true_eq, decide_eq_true_eq]
  exact Int.le_total (key a) (key b)

/-- What is sorted by a number goes from the lowest to the highest. -/
theorem pairwise_mergeSort_key (key : α → Int) (l : List α) :
    (l.mergeSort fun a b => decide (key a ≤ key b)).Pairwise fun a b => key a ≤ key b :=
  (List.pairwise_mergeSort (key_trans key) (key_total key) l).imp of_decide_eq_true

/-- Elements of one number keep their places when they are sorted by it. -/
theorem filter_mergeSort_key (key : α → Int) (n : Int) (l : List α) :
    ((l.mergeSort fun a b => decide (key a ≤ key b)).filter fun a => key a == n) =
      l.filter fun a => key a == n := by
  refine filter_mergeSort_of_ties (key_trans key) (key_total key) fun a b ha hb => ?_
  rw [beq_iff_eq] at ha hb
  exact decide_eq_true (Int.le_of_eq (ha.trans hb.symm))

end MaterialInspection.Sorting
