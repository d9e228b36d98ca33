import MaterialInspection.Chance

/-!
# Words that a draw takes

A draw hands the stream on, so nothing in its type keeps it from looking ahead, from going back or from
giving a stream of its own.  No draw does: it takes some words off the front of the stream, and these
words alone decide what it gives and how many they are (`Draw.Takes`).  How many it takes may differ
from stream to stream, since a draw between bounds refuses words and a certain one needs none.

* `Takes.andThen` — a draw after a draw takes its words behind those of the first.
* `takesWords_below` — a draw that refuses words takes those that it refuses too.
* `takesWords_times`, `takesWords_each` — many draws take their words one behind the other.
-/

set_option autoImplicit false

namespace MaterialInspection

open Number

-- the constants have thousands of bits, and no proof here needs them
seal twoTo

namespace WordStream

variable {s t : WordStream} {m n : Nat}

/-- The stream with some more words used up. -/
def after (s : WordStream) (n : Nat) : WordStream := ⟨s.word, s.used + n⟩

@[simp] theorem after_zero (s : WordStream) : s.after 0 = s := rfl

@[simp] theorem after_after (s : WordStream) (m n : Nat) : (s.after m).after n = s.after (m + n) := by
  unfold after
  rw [Nat.add_assoc]

/-- The next words of two streams are the same. -/
def Agree (n : Nat) (s t : WordStream) : Prop := ∀ i < n, s.word (s.used + i) = t.word (t.used + i)

theorem Agree.refl (n : Nat) (s : WordStream) : Agree n s s := fun _ _ => rfl

theorem Agree.first (h : Agree (m + n) s t) : Agree m s t :=
  fun i hi => h i (Nat.lt_add_right n hi)

theorem Agree.later (h : Agree (m + n) s t) : Agree n (s.after m) (t.after m) := by
  intro i hi
  have hword := h (m + i) (by omega)
  rwa [← Nat.add_assoc, ← Nat.add_assoc] at hword

/-- Streams of the same given words differ behind these at most. -/
theorem agree_ofWords (words : Array UInt64) (seed other : UInt64) :
    Agree words.size (ofWords words seed) (ofWords words other) := by
  intro i hi
  have hin : 0 + i < words.size := by omega
  unfold ofWords
  dsimp only
  rw [dif_pos hin, dif_pos hin]

end WordStream

namespace Draw

variable {α β : Type}

/-- On this stream a draw takes a number of words off the front, and gives what it gives on every
stream with these words at its front. -/
def Takes (draw : Draw α) (s : WordStream) (n : Nat) : Prop :=
  ∀ t, s.Agree n t → draw t = ((draw s).1, t.after n)

/-- On every stream a draw takes words off the front and depends on these alone. -/
def TakesWords (draw : Draw α) : Prop := ∀ s, ∃ n, draw.Takes s n

/-- A draw that is made after another and may depend on what that one gave. -/
def andThen (draw : Draw α) (next : α → Draw β) : Draw β := fun s => next (draw s).1 (draw s).2

section Takes

variable {draw : Draw α} {next : α → Draw β} {s : WordStream} {m n : Nat}

theorem Takes.eq (h : draw.Takes s n) : draw s = ((draw s).1, s.after n) := h s (.refl n s)

theorem Takes.rest (h : draw.Takes s n) : (draw s).2 = s.after n := congrArg Prod.snd h.eq

theorem takes_certain (a : α) (s : WordStream) : (certain a).Takes s 0 := fun _ _ => rfl

theorem takes_next (s : WordStream) : Takes WordStream.next s 1 := by
  intro t h
  have hword := h 0 (by decide)
  exact congrArg (fun w => (w, t.after 1)) hword.symm

/-- **A draw after a draw takes its words behind those of the first.** -/
theorem Takes.andThen (h : draw.Takes s m) (hnext : (next (draw s).1).Takes (s.after m) n) :
    (draw.andThen next).Takes s (m + n) := by
  intro t hagree
  have hgiven : (draw.andThen next) s = next (draw s).1 (s.after m) := congrArg (next _) h.rest
  have hother : (draw.andThen next) t = next (draw s).1 (t.after m) := by
    unfold Draw.andThen
    rw [h t hagree.first]
  rw [hgiven, hother, hnext _ hagree.later, WordStream.after_after]

end Takes

/-! ## Draws of all kinds -/

variable {draw : Draw α}

theorem takesWords_certain (a : α) : TakesWords (certain a) := fun s => ⟨0, takes_certain a s⟩

theorem takesWords_next : TakesWords WordStream.next := fun s => ⟨1, takes_next s⟩

theorem TakesWords.andThen {next : α → Draw β} (h : draw.TakesWords) (hnext : ∀ a, (next a).TakesWords) :
    (draw.andThen next).TakesWords := by
  intro s
  obtain ⟨m, hm⟩ := h s
  obtain ⟨n, hn⟩ := hnext (draw s).1 (s.after m)
  exact ⟨m + n, hm.andThen hn⟩

theorem TakesWords.map (h : draw.TakesWords) (f : α → β) : (Draw.map f draw).TakesWords :=
  h.andThen fun a => takesWords_certain (f a)

theorem takesWords_unitFraction : TakesWords unitFraction :=
  takesWords_next.map fun w => Binary64.ofUnits (w.toNat / twoTo 11 * twoTo 1021 : Nat)

theorem below_succ (size rounds : Nat) :
    below size (rounds + 1) = andThen WordStream.next fun w =>
      if accepts size w then certain (w.toNat * size / wordCount) else below size rounds := by
  funext s
  simp only [below, andThen]
  split
  · rfl
  · rfl

/-- The words that are refused are taken as well. -/
theorem takesWords_below (size rounds : Nat) : (below size rounds).TakesWords := by
  induction rounds with
  | zero => exact takesWords_certain 0
  | succ rounds ih =>
    rw [below_succ]
    refine takesWords_next.andThen fun w => ?_
    split
    · exact takesWords_certain _
    · exact ih

theorem takesWords_between (low high : Int) : (between low high).TakesWords := by
  unfold between
  dsimp only
  split
  · exact (takesWords_next.map (· + 0x8000000000000000)).map fun w => low + w.toNat
  · exact (takesWords_below _ maxRounds).map fun n => low + n

/-- Only a coin that is not certain to pass is tossed. -/
theorem takesWords_coin (probability : Binary64) : (coin probability).TakesWords := by
  unfold coin
  split
  · exact takesWords_certain true
  · exact takesWords_next.map fun w => decide
      ((w.toNat : Int) < ((probability * .ofInt wordCount).wholePart?).getD 0)

/-- Many draws take their words one behind the other. -/
theorem takesWords_times (h : draw.TakesWords) (n : Nat) : (times n draw).TakesWords := by
  induction n with
  | zero => exact takesWords_certain []
  | succ n ih => exact h.andThen fun a => ih.map (a :: ·)

/-- One draw for each item takes its words behind those of the items before. -/
theorem takesWords_each {draw : α → Draw β} (h : ∀ a, (draw a).TakesWords) (as : List α) :
    (each draw as).TakesWords := by
  induction as with
  | nil => exact takesWords_certain []
  | cons a as ih => exact (h a).andThen fun b => ih.map (b :: ·)

end Draw

end MaterialInspection
