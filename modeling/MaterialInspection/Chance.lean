import MaterialInspection.Number.Binary64
import MaterialInspection.Number.Width

/-!
# Drawing by chance

All randomness comes from a stream of 64-bit words that is handed through every draw, so a draw is
a function from the stream to a value and the rest of the stream.

* `Draw.unitFraction` takes one word for a multiple of `2 ^ -53` in `[0, 1)`;
* `Draw.between` takes words until one falls into the part of the 64-bit range that the wanted
  interval divides evenly, so that every whole number in it is equally likely;
* `Draw.coin` takes one word, or none when the answer is certain.

A draw between bounds goes on until a word is accepted.  Here it looks at `maxRounds` words, so a
statement about every stream of words is one about those streams that have an accepted word among the
first `maxRounds` of each such draw; on these, `Draw.below_more` says, no number of rounds is too large.

Principal statements: `Draw.times_add` (many draws are some of them and then the others) and
`Draw.between_bounds` (a draw between two bounds stays there).
-/

set_option autoImplicit false

namespace MaterialInspection

open Number

/-- A stream of random words, of which some are used up. -/
structure WordStream where
  word : Nat → UInt64
  used : Nat

namespace WordStream

/-- The next word and the stream after it. -/
def next (s : WordStream) : UInt64 × WordStream := (s.word s.used, ⟨s.word, s.used + 1⟩)

/-- The word that stands `index` places into the SplitMix64 sequence of a seed. -/
def splitMix (seed : UInt64) (index : Nat) : UInt64 :=
  let z := seed + 0x9E3779B97F4A7C15 * (UInt64.ofNat index + 1)
  let z := (z ^^^ (z >>> 30)) * 0xBF58476D1CE4E5B9
  let z := (z ^^^ (z >>> 27)) * 0x94D049BB133111EB
  z ^^^ (z >>> 31)

/-- Given words first, then the SplitMix64 sequence of a seed. -/
def ofWords (words : Array UInt64) (seed : UInt64) : WordStream where
  word i := if h : i < words.size then words[i] else splitMix seed (i - words.size)
  used := 0

end WordStream

/-- A value drawn from the stream. -/
abbrev Draw (α : Type) : Type := WordStream → α × WordStream

namespace Draw

variable {α β : Type}

/-- A value that needs no word. -/
def certain (a : α) : Draw α := fun s => (a, s)

/-- A function of what is drawn. -/
def map (f : α → β) (draw : Draw α) : Draw β := fun s =>
  let (a, rest) := draw s
  (f a, rest)

/-- The same draw again and again. -/
def times : Nat → Draw α → Draw (List α)
  | 0, _ => certain []
  | n + 1, draw => fun s =>
    let (a, rest) := draw s
    let (as, rest) := times n draw rest
    (a :: as, rest)

/-- One draw for each item, in order. -/
def each (draw : α → Draw β) : List α → Draw (List β)
  | [] => certain []
  | a :: as => fun s =>
    let (b, rest) := draw a s
    let (bs, rest) := each draw as rest
    (b :: bs, rest)

/-- A multiple of `2 ^ -53` in `[0, 1)`: the upper 53 bits of a word. -/
def unitFraction : Draw Binary64 := fun s =>
  let (w, rest) := s.next
  (.ofUnits (w.toNat / twoTo 11 * twoTo 1021 : Nat), rest)

/-- How many words a draw between bounds looks at.  Each is refused with a chance below one half, and one
of so many is taken to be accepted: where all of them are refused, the draw would go on, and gives up
here. -/
def maxRounds : Nat := 4096

/-- Whether a word falls into the evenly divided part. -/
def accepts (size : Nat) (w : UInt64) : Bool :=
  decide (w.toNat * size % wordCount ≤ size * twoTo (63 - size.log2) - 1)

/-- The first word that falls into the evenly divided part, as a number below `size`. -/
def below (size : Nat) : Nat → Draw Nat
  | 0 => certain 0
  | rounds + 1 => fun s =>
    let (w, rest) := s.next
    if accepts size w then (w.toNat * size / wordCount, rest) else below size rounds rest

/-- A whole number from `low` to `high`, both signed 64-bit numbers and in this order.  If they are
the first and the last such number, the word itself is the answer. -/
def between (low high : Int) : Draw Int :=
  let size := (high - low + 1).toNat
  if size = wordCount then map (fun w : UInt64 => low + w.toNat) fun s =>
    let (w, rest) := s.next
    (w + 0x8000000000000000, rest)
  else map (fun n : Nat => low + n) (below size maxRounds)

/-- True with a probability from zero to one. -/
def coin (probability : Binary64) : Draw Bool :=
  if probability.same 1 then certain true
  else fun s =>
    let (w, rest) := s.next
    let threshold := ((probability * .ofInt wordCount).wholePart?).getD 0
    (decide ((w.toNat : Int) < threshold), rest)

/-- Some draws and then others are one row of draws. -/
theorem times_add (m n : Nat) (draw : Draw α) (s : WordStream) :
    times (m + n) draw s =
      ((times m draw s).1 ++ (times n draw (times m draw s).2).1,
        (times n draw (times m draw s).2).2) := by
  induction m generalizing s with
  | zero => simp [times, certain]
  | succ m ih =>
    rw [Nat.succ_add]
    simp only [times, ih, List.cons_append]

theorem length_times (n : Nat) (draw : Draw α) (s : WordStream) : (times n draw s).1.length = n := by
  induction n generalizing s with
  | zero => rfl
  | succ n ih => simp only [times, List.length_cons, ih]

theorem toNat_lt_wordCount (w : UInt64) : w.toNat < wordCount := w.toNat_lt

theorem below_lt {size : Nat} (h : 0 < size) (rounds : Nat) (s : WordStream) :
    (below size rounds s).1 < size := by
  induction rounds generalizing s with
  | zero => exact h
  | succ rounds ih =>
    simp only [below]
    split
    · rw [Nat.div_lt_iff_lt_mul (by decide), Nat.mul_comm size]
      exact Nat.mul_lt_mul_of_pos_right (toNat_lt_wordCount s.next.1) h
    · exact ih _

/-- Once a word is accepted, more rounds change nothing. -/
theorem below_more {size rounds : Nat} {s : WordStream}
    (h : ∃ i < rounds, accepts size (s.word (s.used + i)) = true) (more : Nat) :
    below size (rounds + more) s = below size rounds s := by
  induction rounds generalizing s with
  | zero =>
    obtain ⟨_, hi, _⟩ := h
    exact absurd hi (Nat.not_lt_zero _)
  | succ rounds ih =>
    rw [Nat.add_right_comm]
    simp only [below]
    split
    · rfl
    · rename_i hrefused
      obtain ⟨i, hi, haccepted⟩ := h
      cases i with
      | zero => exact absurd haccepted hrefused
      | succ i =>
        refine ih ⟨i, Nat.lt_of_succ_lt_succ hi, ?_⟩
        rw [WordStream.next, Nat.add_right_comm]
        exact haccepted

/-- A draw between two bounds stays there. -/
theorem between_bounds {low high : Int} (h : low ≤ high) (s : WordStream) :
    low ≤ (between low high s).1 ∧ (between low high s).1 ≤ high := by
  unfold between
  dsimp only
  split
  · rename_i hs
    simp only [map]
    have := toNat_lt_wordCount (s.next.1 + 0x8000000000000000)
    omega
  · simp only [map]
    have positive : 0 < (high - low + 1).toNat := by omega
    have := below_lt positive maxRounds s
    omega

end Draw

end MaterialInspection
