import MaterialInspection.Proofs.Chance.Words
import MaterialInspection.Proofs.Sample.Grid
import MaterialInspection.Proofs.Sample.Offset

/-!
# Samples asked for at once or one after another

Samples of an item are one draw again and again, and whatever way its samples are made, that draw takes
its words off the front of the stream.  So it makes no difference whether samples are asked for at once
or in two parts, the second with the words that the first has left.

* `takesWords_gridText` — a grid draw takes words whichever grid has a point.
* `Settings.takesWords_sampler` — so does the draw of every item.
* `Settings.values_add` — samples that are asked for in two parts.
-/

set_option autoImplicit false

namespace MaterialInspection.Sample

open Number Draw

seal unitsPerOne unitsLimit twoTo tenTo

/-! ## Ways of drawing -/

theorem takesWords_uniform (a b : Binary64) : (uniform a b).TakesWords := by
  have hspread : ∀ lo hi : Binary64, TakesWords
      (if hi - lo ≤ resolution then certain lo else Draw.map (interpolate lo hi) unitFraction) := by
    intro lo hi
    split
    · exact takesWords_certain lo
    · exact takesWords_unitFraction.map (interpolate lo hi)
  unfold uniform
  split
  · exact hspread _ _
  · split
    · exact takesWords_certain a
    · split
      · exact takesWords_certain b
      · exact takesWords_certain 0

theorem takesWords_drawStep (first last : Binary64) : (drawStep first last).TakesWords := by
  unfold drawStep
  split
  · exact takesWords_certain first
  · exact (takesWords_between _ _).map Binary64.ofInt

/-- A grid draw takes words whichever grid has a point. -/
theorem takesWords_gridText (lo hi : Binary64) (finer places : Nat) :
    (gridText lo hi finer places).TakesWords := by
  have hgrid : ∀ places, ∀ next : Draw String, next.TakesWords →
      TakesWords (if Coarse lo hi places then Draw.map (fun x => x.toFixed places) (uniform lo hi)
        else if firstStep places lo ≤ lastStep places hi then
          Draw.map (fun step => (step / gridScale places).toFixed places)
            (drawStep (firstStep places lo) (lastStep places hi))
        else next) := by
    intro places next hnext
    split
    · exact (takesWords_uniform lo hi).map _
    · split
      · exact (takesWords_drawStep _ _).map _
      · exact hnext
  induction finer generalizing places with
  | zero =>
    rw [gridText_eq]
    exact hgrid places _ (takesWords_certain _)
  | succ finer ih =>
    rw [gridText_eq]
    exact hgrid places _ (ih (places + 1))

theorem takesWords_onGrid (a b : Binary64) (places : Nat) : (onGrid a b places).TakesWords :=
  takesWords_gridText _ _ _ _

theorem takesWords_criterionSample (c : Criterion) (places : Nat) :
    (criterionSample c places).TakesWords := by
  cases c with
  | range min max => exact takesWords_onGrid min max places
  | minimum bound =>
    unfold criterionSample
    exact takesWords_onGrid bound _ places
  | maximum bound =>
    unfold criterionSample
    exact takesWords_onGrid _ bound places
  | free => exact takesWords_certain allRight

theorem takesWords_offsetSample (base low high : Binary64) (places : Nat) :
    (Rule.offsetSample base low high places).TakesWords := by
  unfold Rule.offsetSample
  exact (takesWords_uniform low high).map _

theorem Rule.takesWords_sample (rule : Rule) : rule.sample.TakesWords := by
  unfold sample
  split
  · exact takesWords_certain _
  · exact (takesWords_coin _).map _
  · exact takesWords_offsetSample _ _ _ _

namespace Settings

variable (s : Settings) (item : Item)

theorem takesWords_tackSample (target : String) : (s.tackSample target).TakesWords :=
  (takesWords_between _ _).map ballText

theorem takesWords_nearStandard : (s.nearStandard item).TakesWords := by
  rw [nearStandard_eq]
  cases s.offsetsNearStandard? item with
  | none => exact takesWords_certain allRight
  | some o => exact takesWords_offsetSample o.base o.low o.high o.places

theorem takesWords_generalSample : (s.generalSample item).TakesWords := by
  unfold generalSample
  split
  · exact Rule.takesWords_sample _
  · split
    · exact s.takesWords_nearStandard item
    · exact takesWords_criterionSample _ _

/-- **Whatever an item is sampled by, its draw takes words off the front of the stream.** -/
theorem takesWords_sampler : (s.sampler item).TakesWords := by
  unfold sampler
  split
  · exact takesWords_certain _
  · exact s.takesWords_tackSample item.target
  · exact s.takesWords_generalSample item

theorem takesWords_values (count : Nat) : (s.values item count).TakesWords :=
  takesWords_times (s.takesWords_sampler item) count

/-- **Samples do not depend on how many are asked for.**  Some samples and then others, drawn with the
words that the first ones have left, are the samples that are drawn at once, and they leave the same
words.  What each of the two draws leaves is the stream after the words that it took, and the samples
are the same on every stream that starts with the words of both.  Streams are taken as `Draw.maxRounds`
says. -/
theorem values_add (m n : Nat) (words : WordStream) :
    s.values item (m + n) words =
        ((s.values item m words).1 ++ (s.values item n (s.values item m words).2).1,
          (s.values item n (s.values item m words).2).2) ∧
      ∃ k l, (s.values item m words).2 = words.after k ∧
        (s.values item n (words.after k)).2 = words.after (k + l) ∧
        ∀ other, words.Agree (k + l) other →
          s.values item (m + n) other = ((s.values item (m + n) words).1, other.after (k + l)) := by
  have hsplit := Draw.times_add m n (s.sampler item) words
  obtain ⟨k, hk⟩ := s.takesWords_values item m words
  obtain ⟨l, hl⟩ := s.takesWords_values item n (words.after k)
  refine ⟨hsplit, k, l, hk.rest, ?_, ?_⟩
  · rw [hl.rest, WordStream.after_after]
  · intro other hagree
    have hfirst := hk other hagree.first
    have hlater := hl (other.after k) hagree.later
    rw [WordStream.after_after] at hlater
    unfold values at *
    rw [Draw.times_add m n _ other, hsplit, hfirst, hlater, hk.rest]

/-- An item that is sampled with a ball from ten to twelve. -/
def tenTack : Item := { name := "初粘性", criteria := "≥ 10#" }

/-- Three words of which a draw among three balls refuses the first. -/
def threeWords : Array UInt64 := #[0x5555555555555555, 0, 0xAAAAAAAAAAAAAAAB]

/-- The first of two balls takes two of the words and the second one takes the third, so what follows
them does not matter. -/
theorem values_add_tenTack :
    (WordStream.ofWords threeWords 0).Agree (2 + 1) (.ofWords threeWords 7) ∧
      values {} tenTack (1 + 1) (.ofWords threeWords 7) =
        (["10#", "12#"], (WordStream.ofWords threeWords 7).after (2 + 1)) := by
  have hfirst : (values {} tenTack 1 (.ofWords threeWords 0)).2.used = 2 := by decide +kernel
  have hlater : (values {} tenTack 1 ((WordStream.ofWords threeWords 0).after 2)).2.used = 3 := by
    decide +kernel
  have hgiven : (values {} tenTack (1 + 1) (.ofWords threeWords 0)).1 = ["10#", "12#"] := by
    decide +kernel
  have hagree := WordStream.agree_ofWords threeWords 0 7
  obtain ⟨_, k, l, hk, hl, hother⟩ := values_add {} tenTack 1 1 (.ofWords threeWords 0)
  obtain rfl : 2 = k := by
    rw [← hfirst, hk]
    exact Nat.zero_add k
  obtain rfl : 1 = l := by
    rw [hl] at hlater
    have hused : 0 + (2 + l) = 3 := hlater
    omega
  rw [← hgiven]
  exact ⟨hagree, hother (.ofWords threeWords 7) hagree⟩

end Settings

end MaterialInspection.Sample
