import MaterialInspection.Chance
import Mathlib.Data.List.Forall2

/-!
# What can be drawn

A draw is a function of the words, so what it can give is its image (`Draw.Yields`), and a statement
about every stream of words is one about everything that can be drawn.

* `yields_between` — a draw between two bounds gives every whole number between them and no other.
* `forall_times` — what holds of every sample of every number of draws holds of what can be drawn.
* `forall₂_each` — one draw for each item gives one value for each, in their order.
-/

set_option autoImplicit false

namespace MaterialInspection

open Number

/-- One word again and again. -/
def WordStream.constant (w : UInt64) : WordStream := ⟨fun _ => w, 0⟩

namespace Draw

variable {α β : Type}

/-- A value that a draw gives for some words. -/
def Yields (draw : Draw α) (a : α) : Prop := ∃ s, (draw s).1 = a

theorem yields_certain {a b : α} : Yields (certain a) b ↔ b = a := by
  constructor
  · rintro ⟨s, rfl⟩
    rfl
  · rintro rfl
    exact ⟨.constant 0, rfl⟩

theorem yields_map {f : α → β} {draw : Draw α} {b : β} :
    Yields (map f draw) b ↔ ∃ a, Yields draw a ∧ f a = b := by
  constructor
  · rintro ⟨s, h⟩
    exact ⟨(draw s).1, ⟨s, rfl⟩, h⟩
  · rintro ⟨a, ⟨s, rfl⟩, rfl⟩
    exact ⟨s, rfl⟩

theorem yields_of_mem_times {draw : Draw α} {n : Nat} {s : WordStream} {a : α}
    (h : a ∈ (times n draw s).1) : Yields draw a := by
  induction n generalizing s with
  | zero => cases h
  | succ n ih =>
    simp only [times, List.mem_cons] at h
    rcases h with rfl | h
    · exact ⟨s, rfl⟩
    · exact ih h

/-- All samples of all numbers of draws are all that can be drawn. -/
theorem forall_times {draw : Draw α} {P : α → Prop} :
    (∀ n s, ∀ a ∈ (times n draw s).1, P a) ↔ ∀ a, Yields draw a → P a := by
  constructor
  · rintro h a ⟨s, rfl⟩
    exact h 1 s _ (by simp [times])
  · intro h n s a ha
    exact h a (yields_of_mem_times ha)

/-- What is drawn for some items is drawn for one of them each. -/
theorem yields_of_mem_each {draw : α → Draw β} {as : List α} {s : WordStream} {b : β}
    (h : b ∈ (each draw as s).1) : ∃ a ∈ as, Yields (draw a) b := by
  induction as generalizing s with
  | nil => cases h
  | cons a as ih =>
    rcases List.mem_cons.1 h with rfl | h
    · exact ⟨a, List.mem_cons_self, s, rfl⟩
    · obtain ⟨other, hmem, hyields⟩ := ih h
      exact ⟨other, List.mem_cons_of_mem _ hmem, hyields⟩

/-- One draw for each item gives one value for each item, in the order of the items. -/
theorem forall₂_each {R : α → β → Prop} {draw : α → Draw β} (h : ∀ a s, R a (draw a s).1)
    (as : List α) (s : WordStream) : List.Forall₂ R as (each draw as s).1 := by
  induction as generalizing s with
  | nil => exact .nil
  | cons a as ih => exact .cons (h a s) (ih _)

/-! ## Whole numbers between bounds -/

/-- The word that falls on the `k`-th of `size` parts of the range of words. -/
def wordFor (size k : Nat) : Nat := (k * wordCount + (size - 1)) / size

theorem wordFor_spec {size k : Nat} (hk : k < size) (hs : size ≤ wordCount) :
    wordFor size k < wordCount ∧ wordFor size k * size / wordCount = k ∧
      wordFor size k * size % wordCount < size := by
  have hsize : 0 < size := by omega
  have hcount : 0 < wordCount := by decide
  have hdiv := Nat.div_add_mod (k * wordCount + (size - 1)) size
  have hmod := Nat.mod_lt (k * wordCount + (size - 1)) hsize
  rw [Nat.mul_comm size] at hdiv
  generalize hw : wordFor size k = w
  have hdef : (k * wordCount + (size - 1)) / size = w := hw
  rw [hdef] at hdiv
  -- the word times the size passes `k` whole ranges of words by less than the size
  have hlow : k * wordCount ≤ w * size := by omega
  have hhigh : w * size < k * wordCount + size := by omega
  have hrest : w * size = w * size - k * wordCount + wordCount * k := by
    rw [Nat.mul_comm wordCount]
    omega
  have hlt : w * size - k * wordCount < wordCount := by omega
  refine ⟨?_, ?_, ?_⟩
  · have hle : k * wordCount + size ≤ wordCount * size := by
      have := Nat.mul_le_mul_right wordCount (show k + 1 ≤ size from hk)
      rw [Nat.add_mul, Nat.one_mul, Nat.mul_comm size] at this
      omega
    exact Nat.lt_of_mul_lt_mul_right (Nat.lt_of_lt_of_le hhigh hle)
  · rw [hrest, Nat.add_mul_div_left _ _ hcount, Nat.div_eq_of_lt hlt, Nat.zero_add]
  · rw [hrest, Nat.add_mul_mod_self_left, Nat.mod_eq_of_lt hlt]
    omega

theorem below_wordFor {size k : Nat} (hk : k < size) (hs : size ≤ wordCount) (rounds : Nat) :
    (below size (rounds + 1) (.constant (.ofNat (wordFor size k)))).1 = k := by
  obtain ⟨hlt, hquot, hrest⟩ := wordFor_spec hk hs
  have hnat : (UInt64.ofNat (wordFor size k)).toNat = wordFor size k := UInt64.toNat_ofNat_of_lt' hlt
  have hzone : size ≤ size * twoTo (63 - size.log2) := Nat.le_mul_of_pos_right _ (twoTo_pos _)
  have haccepts : accepts size (.ofNat (wordFor size k)) = true := by
    unfold accepts
    rw [hnat]
    exact decide_eq_true (by omega)
  unfold below WordStream.next WordStream.constant
  dsimp only
  rw [if_pos haccepts, hnat, hquot]

/-- **A draw between two bounds gives the whole numbers between them.** -/
theorem yields_between {low high n : Int} (h : low ≤ high) (hs : high - low < wordCount) :
    Yields (between low high) n ↔ low ≤ n ∧ n ≤ high := by
  constructor
  · rintro ⟨s, rfl⟩
    exact between_bounds h s
  · rintro ⟨hlow, hhigh⟩
    unfold between
    dsimp only
    split
    · rename_i hsize
      have hk : (n - low).toNat < wordCount := by omega
      refine ⟨.constant (.ofNat (n - low).toNat - 0x8000000000000000), ?_⟩
      unfold map WordStream.next WordStream.constant
      dsimp only
      rw [UInt64.sub_add_cancel, UInt64.toNat_ofNat_of_lt' hk]
      omega
    · have hk : (n - low).toNat < (high - low + 1).toNat := by omega
      have hrounds : maxRounds = 4095 + 1 := rfl
      rw [yields_map, hrounds]
      exact ⟨(n - low).toNat, ⟨_, below_wordFor hk (by omega) 4095⟩, by omega⟩

end Draw

end MaterialInspection
