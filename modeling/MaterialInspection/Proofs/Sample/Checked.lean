import MaterialInspection.Exchange
import MaterialInspection.Proofs.Json.Numbers
import MaterialInspection.Proofs.Sample.DrawnRange
import MaterialInspection.Proofs.Sample.Offset
import MaterialInspection.Proofs.Sample.ReadRule
import MaterialInspection.Proofs.Sample.Tack
import MaterialInspection.Proofs.SamplingPlan

/-!
# Sampling with its preconditions checked

Five steps of sampling are only defined for some arguments: drawing a whole number needs an interval
that is not empty, reading a grid step as a 64-bit number needs one that is small enough, a coin needs
a probability, clamping needs limits in order, and a list of samples needs room for them.  And the
search for a grid point is a loop.  Here every such step checks what it is given and stops at a misuse,
and the loop has a number of rounds; the checked sampling is shown to stop only where there is no room
for the samples, and otherwise to give those of `Settings.values`.

* `Checked.uniform_eq` — drawing anywhere between two numbers needs nothing of them.
* `Checked.gridRounds_eq` — eleven rounds find a grid point or run out of decimals, and the steps that
  are read fit 64 bits.
* `Checked.values_eq` — with settings that were read, no step is misused for any item, unless there is
  no room for as many samples as are asked for.
* `Checked.values_beyond_capacity` — stored settings ask for as many.
-/

set_option autoImplicit false

namespace MaterialInspection

open Number

seal unitsPerOne unitsLimit twoTo tenTo

namespace Sample

open Binary64

/-! ## Checked steps -/

/-- What a step of sampling can be asked for that it cannot do. -/
inductive Misuse
  | emptyInterval (low high : Int)
  | noStep (step : Binary64)
  | noProbability (probability : Binary64)
  | noLimits (x low high : Binary64)
  | tooManyRounds (places : Nat)
  | tooManySamples (count : Nat)

/-- A draw that stops at a misuse. -/
abbrev Checked (α : Type) : Type := StateT WordStream (Except Misuse) α

namespace Checked

variable {α β : Type}

/-- A draw that needs nothing. -/
def ofDraw (draw : Draw α) : Checked α := fun s => .ok (draw s)

/-- A number that is one, kept between two limits in order. -/
def clamp (x low high : Binary64) : Except Misuse Binary64 :=
  if x.isNaN = false ∧ low ≤ high then .ok (x.clamp low high) else .error (.noLimits x low high)

/-- A grid step as a signed 64-bit number: it has to be finite and below `2 ^ 63` in magnitude. -/
def castStep (step : Binary64) : Except Misuse Int :=
  match step.wholePart? with
  | some n => if step.abs < stepLimit then .ok n else .error (.noStep step)
  | none => .error (.noStep step)

/-- A number between two signed 64-bit numbers in order. -/
def between (low high : Int) : Checked Int :=
  if InInt64 low ∧ InInt64 high ∧ low ≤ high then ofDraw (Draw.between low high)
  else throw (.emptyInterval low high)

/-- True with a probability from zero to one. -/
def coin (probability : Binary64) : Checked Bool :=
  if 0 ≤ probability ∧ probability ≤ 1 then ofDraw (Draw.coin probability)
  else throw (.noProbability probability)

/-! ## Checked sampling -/

/-- A value between two numbers in either order. -/
def uniform (a b : Binary64) : Checked Binary64 :=
  if a.isFinite && b.isFinite then
    let (lo, hi) := if a ≤ b then (a, b) else (b, a)
    if hi - lo ≤ resolution then pure lo
    else do
      let fraction ← ofDraw Draw.unitFraction
      clamp (pointBy lo hi fraction) lo hi
  else if a.isFinite then pure a
  else if b.isFinite then pure b
  else pure 0

/-- A number of steps from the first to the last. -/
def drawStep (first last : Binary64) : Checked Binary64 :=
  if first.same last then pure first
  else do
    let low ← castStep first
    let high ← castStep last
    let n ← between low high
    pure (.ofInt n)

/-- The text of a grid point, searched for on finer and finer grids in a number of rounds. -/
def gridRounds (lo hi : Binary64) (rounds places : Nat) : Checked String :=
  match rounds with
  | 0 => throw (.tooManyRounds places)
  | rounds + 1 =>
    let first := firstStep places lo
    let last := lastStep places hi
    if stepLimit ≤ first.abs ∨ stepLimit ≤ last.abs then do
      let x ← uniform lo hi
      pure (x.toFixed places)
    else if first ≤ last then do
      let step ← drawStep first last
      pure ((step / gridScale places).toFixed places)
    else if maxPlaces ≤ places then pure (lo.toFixed places)
    else gridRounds lo hi rounds (places + 1)

/-- The text of a grid point between two numbers in either order, in eleven rounds. -/
def onGrid (a b : Binary64) (places : Nat) : Checked String :=
  let (lo, hi) := if a ≤ b then (a, b) else (b, a)
  gridRounds lo hi 11 (min places maxPlaces)

def criterionSample (c : Criterion) (places : Nat) : Checked String :=
  if c.isBound then onGrid (drawnRange c).1 (drawnRange c).2 places else pure allRight

def offsetSample (o : Offsets) : Checked String := do
  let offset ← uniform o.low o.high
  pure ((o.base + offset).toFixed o.places)

/-- The rule that a JSON value writes; only a pass rate is clamped. -/
def ruleOfJson? (standard : String) (rule : Json.Value) : Except Misuse (Option Rule) :=
  match rule.member? "type" with
  | some (.text kind) =>
    if Text.trim kind = "enum" then do
      let percent ← clamp ((Rule.memberDouble? rule "passRate").getD 100) 0 100
      pure (some (.passRate percent))
    else pure (Rule.ofJson? standard rule)
  | _ => pure none

def readRule? (rule : Option String) (standard : String) : Except Misuse (Option Rule) :=
  match rule with
  | none => pure none
  | some text =>
    match Json.Value.parse? (Text.trim text) with
    | none => pure none
    | some value => ruleOfJson? standard value

/-- One sample by a rule; a pass rate is turned into a probability before anything is drawn. -/
def ruleSample : Rule → Except Misuse (Checked String)
  | .fixed value => pure (pure value)
  | .passRate percent => do
    let probability ← clamp (percent / 100) 0 1
    pure do
      let passed ← coin probability
      pure (Verdict.ofBool passed).label
  | .offset base low high places => pure (offsetSample ⟨base, low, high, places⟩)

def tackSample (s : Settings) (target : String) : Checked String := do
  let low := (startBall? target.toList).getD s.tackMinimum
  let n ← between low (max low s.tackCap)
  pure (ballText n)

def nearStandard (s : Settings) (item : Item) : Checked String :=
  match s.offsetsNearStandard? item with
  | some o => offsetSample o
  | none => pure allRight

def generalSample (s : Settings) (item : Item) : Except Misuse (Checked String) := do
  match ← readRule? item.rule item.standard with
  | some rule => ruleSample rule
  | none =>
    match Criterion.read item.target with
    | .free => pure (nearStandard s item)
    | c => pure (criterionSample c (c.places item.target))

/-- How one sample of an item is drawn. -/
def sampler (s : Settings) (item : Item) : Except Misuse (Checked String) :=
  match item.kind with
  | .holdTime => pure (pure (if Text.blank item.target then s.holdTime else item.target))
  | .tack => pure (tackSample s item.target)
  | _ => generalSample s item

/-- The same draw again and again. -/
def times : Nat → Checked α → Checked (List α)
  | 0, _ => pure []
  | n + 1, draw => do
    let a ← draw
    let as ← times n draw
    pure (a :: as)

/-- A number of samples of an item; room for them is made before the first is drawn. -/
def values (s : Settings) (item : Item) (count : Nat) : Checked (List String) := do
  let draw ← sampler s item
  if count ≤ capacity then times count draw else throw (.tooManySamples count)

/-! ## Steps that are not misused -/

/-- After a draw that needs nothing comes what is done with its value. -/
theorem ofDraw_bind (draw : Draw α) (next : α → Checked β) (s : WordStream) :
    (ofDraw draw >>= next) s = next (draw s).1 (draw s).2 := rfl

theorem clamp_eq {x low high : Binary64} (hx : x.isNaN = false) (h : low ≤ high) :
    clamp x low high = .ok (x.clamp low high) := if_pos ⟨hx, h⟩

theorem castStep_eq {step : Binary64} {n : Int} (hat : At step (n * unitsPerOne))
    (hwhole : step.wholePart? = some n) (hn : n.natAbs < twoTo 63) : castStep step = .ok n := by
  have hless : step.abs < stepLimit := by
    rw [lt_iff (rank_abs hat.rank) at_stepLimit.rank, Int.natAbs_mul, Int.natAbs_natCast]
    exact Int.ofNat_lt.2 (Nat.mul_lt_mul_of_pos_right hn unitsPerOne_pos)
  unfold castStep
  rw [hwhole]
  exact if_pos hless

theorem between_eq {low high : Int} (hlow : InInt64 low) (hhigh : InInt64 high) (h : low ≤ high) :
    between low high = ofDraw (Draw.between low high) := if_pos ⟨hlow, hhigh, h⟩

theorem coin_eq {probability : Binary64} (hlow : 0 ≤ probability) (hhigh : probability ≤ 1) :
    coin probability = ofDraw (Draw.coin probability) := if_pos ⟨hlow, hhigh⟩

/-! ## Drawing between two numbers -/

/-- Between two finite numbers in order the point at a fraction is a number. -/
theorem spread_eq {lo hi : Binary64} {l h : Int} (hlo : At lo l) (hhi : At hi h) (hle : l ≤ h) :
    (if hi - lo ≤ resolution then pure lo
      else do
        let fraction ← ofDraw Draw.unitFraction
        clamp (pointBy lo hi fraction) lo hi : Checked Binary64) =
      ofDraw (if hi - lo ≤ resolution then Draw.certain lo
        else Draw.map (interpolate lo hi) Draw.unitFraction) := by
  split
  · rfl
  · funext s
    obtain ⟨q, _, hrank⟩ := pointBy_spec hlo hhi hle
    have hfraction := fractionRank_bounds s.next.1
    have hpoint := hrank _ _ (at_unitFraction s) hfraction.1 hfraction.2
    have hclamp := clamp_eq (isNaN_of_rank hpoint) ((le_iff hlo.rank hhi.rank).2 hle)
    rw [ofDraw_bind, hclamp]
    rfl

/-- **Drawing anywhere between two numbers needs nothing of them.** -/
theorem uniform_eq (a b : Binary64) : uniform a b = ofDraw (Sample.uniform a b) := by
  unfold uniform Sample.uniform
  split
  · rename_i hfinite
    obtain ⟨ha, hb⟩ := Bool.and_eq_true_iff.1 hfinite
    obtain ⟨r, hr⟩ := at_of_finite ha
    obtain ⟨s, hs⟩ := at_of_finite hb
    by_cases hle : a ≤ b
    · simp only [if_pos hle]
      exact spread_eq hr hs ((le_iff hr.rank hs.rank).1 hle)
    · simp only [if_neg hle]
      rw [le_iff hr.rank hs.rank] at hle
      exact spread_eq hs hr (by omega)
  · split
    · rfl
    · split
      · rfl
      · rfl

/-! ## Grids -/

variable {lo hi : Binary64} {l h : Int}

theorem drawStep_eq {places : Nat} {n m : Int} (d : Drawable lo hi l places n m)
    (hfine : ¬Coarse lo hi places) (hle : firstStep places lo ≤ lastStep places hi) :
    drawStep (firstStep places lo) (lastStep places hi) =
      ofDraw (Sample.drawStep (firstStep places lo) (lastStep places hi)) := by
  obtain ⟨hfirst, hlast⟩ := not_or.1 hfine
  have hn := natAbs_lt_of_mul (at_of_lt_stepLimit d.at_first.rank hfirst).2
  have hm := natAbs_lt_of_mul (at_of_lt_stepLimit d.at_last.rank hlast).2
  have hpow : twoTo 63 = 9223372036854775808 := by rw [twoTo]
  have hmin : minInt64 = -9223372036854775808 := rfl
  have hmax : maxInt64 = 9223372036854775807 := rfl
  rw [le_iff d.at_first.rank d.at_last.rank] at hle
  have hnm : n ≤ m := Int.le_of_mul_le_mul_right hle (Int.ofNat_lt.2 unitsPerOne_pos)
  have hbetween : between n m = ofDraw (Draw.between n m) :=
    between_eq ⟨by omega, by omega⟩ ⟨by omega, by omega⟩ hnm
  unfold drawStep Sample.drawStep
  split
  · rfl
  · rw [castStep_eq d.at_first d.whole_first hn, castStep_eq d.at_last d.whole_last hm, d.whole_first,
      d.whole_last, Option.getD_some, Option.getD_some]
    show (between n m >>= fun k => pure (ofInt k)) = _
    rw [hbetween]
    rfl

/-- **Rounds for each grid that is left find a grid point or run out of decimals.** -/
theorem gridRounds_eq (hlo : lo.rank = some l) (hhi : hi.rank = some h) {finer rounds places : Nat}
    (hp : places + finer = maxPlaces) (hrounds : finer < rounds) :
    gridRounds lo hi rounds places = ofDraw (gridText lo hi finer places) := by
  induction rounds generalizing finer places with
  | zero => exact absurd hrounds (Nat.not_lt_zero _)
  | succ rounds ih =>
    have hplaces : places ≤ maxPlaces := by omega
    rw [gridText_eq]
    unfold gridRounds
    dsimp only
    split
    · rename_i hcoarse
      rw [if_pos (show Coarse lo hi places from hcoarse), uniform_eq]
      rfl
    · rename_i hfine
      rw [if_neg (show ¬Coarse lo hi places from hfine)]
      obtain ⟨n, m, d⟩ := drawable_of_not_coarse hlo hhi hplaces hfine
      split
      · rename_i hsteps
        rw [drawStep_eq d hfine hsteps]
        rfl
      · cases finer with
        | zero => exact if_pos (by omega)
        | succ finer =>
          rw [if_neg (by omega)]
          exact ih (by omega) (by omega)

theorem onGrid_eq {a b : Binary64} (h : a ≤ b) (places : Nat) :
    onGrid a b places = ofDraw (Sample.onGrid a b places) := by
  obtain ⟨l, r, hl, hr, _⟩ := le_iff_rank.1 h
  have hmax : maxPlaces = 10 := rfl
  unfold onGrid Sample.onGrid
  simp only [if_pos h]
  exact gridRounds_eq hl hr (by omega) (by omega)

theorem criterionSample_eq {c : Criterion} (hc : c.Ordered) (places : Nat) :
    criterionSample c places = ofDraw (Sample.criterionSample c places) := by
  unfold criterionSample
  split
  · rename_i hbound
    rw [Sample.criterionSample_eq hbound, onGrid_eq (drawnRange_ordered hc hbound)]
  · rename_i hfree
    cases c with
    | range min max => exact absurd rfl hfree
    | minimum bound => exact absurd rfl hfree
    | maximum bound => exact absurd rfl hfree
    | free => rfl

/-! ## Rules -/

theorem zero_le_one : (0 : Binary64) ≤ 1 :=
  (le_iff at_zero.rank at_one.rank).2 (Int.natCast_nonneg unitsPerOne)

theorem finite_percent (rule : Json.Value) :
    ((Rule.memberDouble? rule "passRate").getD 100).isFinite = true :=
  Rule.finite_getD (fun _ => Rule.finite_of_memberDouble?) at_hundred.finite

/-- The percentage of a rule that is read is finite. -/
def Percent (rule : Rule) : Prop := ∀ percent, rule = .passRate percent → percent.isFinite = true

theorem ruleOfJson?_eq (standard : String) (rule : Json.Value) :
    ruleOfJson? standard rule = .ok (Rule.ofJson? standard rule) := by
  have hclamp := clamp_eq (isNaN_of_finite (finite_percent rule))
    ((le_iff at_zero.rank at_hundred.rank).2 (Int.natCast_nonneg _))
  unfold ruleOfJson?
  split
  · rename_i kind hkind
    split
    · rename_i henum
      rw [hclamp]
      unfold Rule.ofJson?
      rw [hkind]
      dsimp only
      rw [henum, if_neg (by decide), if_pos rfl]
      rfl
    · rfl
  · rename_i hother
    unfold Rule.ofJson?
    split
    · rename_i kind hkind
      exact absurd hkind (hother kind)
    · rfl

theorem readRule?_eq (rule : Option String) (standard : String) :
    readRule? rule standard = .ok (Rule.read? rule standard) := by
  unfold readRule? Rule.read?
  cases rule with
  | none => rfl
  | some text =>
    dsimp only
    cases Json.Value.parse? (Text.trim text) with
    | none => rfl
    | some value => exact ruleOfJson?_eq standard value

theorem percent_of_read? {rule : Option String} {standard : String} {r : Rule}
    (h : Rule.read? rule standard = some r) : Percent r := by
  rintro percent rfl
  exact Rule.sound_of_read? h

theorem offsetSample_eq (o : Offsets) : offsetSample o = ofDraw o.sampler := by
  unfold offsetSample
  rw [uniform_eq]
  rfl

/-- A percentage is a probability of a hundredth. -/
theorem ruleSample_eq {rule : Rule} (h : Percent rule) : ruleSample rule = .ok (ofDraw rule.sample) := by
  cases rule with
  | fixed value => rfl
  | offset base low high places => exact congrArg Except.ok (offsetSample_eq _)
  | passRate percent =>
    have hone : unitsPerOne ≤ 100 * unitsPerOne := Nat.le_mul_of_pos_left _ (by decide)
    have hpart := finite_div (h percent rfl) at_hundred hone
    obtain ⟨r, hr⟩ := at_of_finite hpart
    have hrank := rank_clamp hr.rank at_zero.rank at_one.rank (Int.natCast_nonneg unitsPerOne)
    have hlow := (le_iff at_zero.rank hrank).2 (Int.le_max_left _ _)
    have hhigh := (le_iff hrank at_one.rank).2 (by have := Int.natCast_nonneg unitsPerOne; omega)
    unfold ruleSample
    dsimp only
    rw [clamp_eq (isNaN_of_finite hpart) zero_le_one]
    show Except.ok (coin _ >>= _) = _
    rw [coin_eq hlow hhigh]
    rfl

/-! ## Items -/

variable {s : Settings} {item : Item}

theorem tackSample_eq (hs : s.BallsFit) (item : Item) :
    tackSample s item.target = ofDraw (s.tackSample item.target) := by
  have hlow : InInt64 ((startBall? item.target.toList).getD s.tackMinimum) := hs.start item
  have hhigh : InInt64 (max ((startBall? item.target.toList).getD s.tackMinimum) s.tackCap) :=
    hs.largest item
  unfold tackSample
  dsimp only
  rw [between_eq hlow hhigh (Int.le_max_left _ _)]
  rfl

theorem nearStandard_eq (s : Settings) (item : Item) :
    nearStandard s item = ofDraw (s.nearStandard item) := by
  rw [Settings.nearStandard_eq]
  unfold nearStandard
  cases s.offsetsNearStandard? item with
  | none => rfl
  | some o => exact offsetSample_eq o

theorem generalSample_eq (s : Settings) (item : Item) :
    generalSample s item = .ok (ofDraw (s.generalSample item)) := by
  have hordered := Criterion.read_ordered item.target
  unfold generalSample Settings.generalSample
  rw [readRule?_eq]
  show (match Rule.read? item.rule item.standard with
    | some rule => ruleSample rule
    | none => _) = _
  cases hrule : Rule.read? item.rule item.standard with
  | some rule => exact ruleSample_eq (percent_of_read? hrule)
  | none =>
    dsimp only
    cases hread : Criterion.read item.target with
    | free => exact congrArg Except.ok (nearStandard_eq s item)
    | range min max =>
      rw [hread] at hordered
      exact congrArg Except.ok (criterionSample_eq hordered _)
    | minimum bound =>
      rw [hread] at hordered
      exact congrArg Except.ok (criterionSample_eq hordered _)
    | maximum bound =>
      rw [hread] at hordered
      exact congrArg Except.ok (criterionSample_eq hordered _)

theorem sampler_eq (hs : s.BallsFit) (item : Item) :
    sampler s item = .ok (ofDraw (s.sampler item)) := by
  unfold sampler Settings.sampler
  cases item.kind with
  | holdTime => rfl
  | tack => exact congrArg Except.ok (tackSample_eq hs item)
  | thickness => exact generalSample_eq s item
  | dimension => exact generalSample_eq s item
  | weight => exact generalSample_eq s item
  | generic => exact generalSample_eq s item

theorem times_eq (count : Nat) (draw : Draw α) :
    times count (ofDraw draw) = ofDraw (Draw.times count draw) := by
  induction count with
  | zero => rfl
  | succ count ih =>
    unfold times
    rw [ih]
    rfl

/-- Samples are drawn if there is room for them, and only then. -/
theorem values_of_ballsFit (hs : s.BallsFit) (item : Item) (count : Nat) (words : WordStream) :
    values s item count words =
      if count ≤ capacity then .ok (s.values item count words) else .error (.tooManySamples count) := by
  unfold values
  rw [sampler_eq hs]
  show (if count ≤ capacity then times count (ofDraw (s.sampler item))
    else throw (.tooManySamples count)) words = _
  split
  · rw [times_eq]
    rfl
  · rfl

end Checked

/-! ## Settings that are read -/

/-- How samples are made, as it is read from a JSON text, alone or with the other settings, or from
stored texts. -/
inductive Settings.FromText : Settings → Prop
  | alone {t : Json.Tree} {s : Settings} (h : Settings.ofTree? t = some s) : FromText s
  | json {t : Json.Tree} {s : MaterialInspection.Settings}
    (h : MaterialInspection.Settings.ofTree? t = some s) : FromText s.sample
  | stored (text : SettingKey → Option String) : FromText (MaterialInspection.Settings.load text).sample

/-- What holds of the default and of all that can be read holds of a field. -/
theorem orElse?_satisfies {α β : Type} {r : Json.Record α} {name : String} {read? : α → Option β}
    {default b : β} {P : β → Prop} (hdefault : P default) (hread : ∀ a b, read? a = some b → P b)
    (h : r.orElse? name read? default = some b) : P b := by
  unfold Json.Record.orElse? at h
  split at h
  · exact hread _ _ h
  · cases h
    exact hdefault

theorem ballsFit_of_ofTree? {t : Json.Tree} {s : Settings} (h : Settings.ofTree? t = some s) :
    s.BallsFit := by
  have hread : ∀ a n, Json.Tree.int64? a = some n → InInt64 n := fun _ _ => Json.Tree.int?_bounds
  unfold Settings.ofTree? at h
  simp only [Option.bind_eq_bind, Option.bind_eq_some_iff] at h
  obtain ⟨r, _, _, _, _, hminimum, _, hcap, _, _, _, _, _, _, h⟩ := h
  cases h
  exact ⟨orElse?_satisfies (by decide) hread hminimum, orElse?_satisfies (by decide) hread hcap⟩

/-- The ball numbers of settings that are read have 64 bits. -/
theorem Settings.FromText.ballsFit {s : Settings} (h : s.FromText) : s.BallsFit := by
  cases h with
  | alone h => exact ballsFit_of_ofTree? h
  | @json t s h =>
    unfold MaterialInspection.Settings.ofTree? at h
    simp only [Option.bind_eq_bind, Option.bind_eq_some_iff] at h
    obtain ⟨r, _, _, _, sample, hsample, _, _, _, _, h⟩ := h
    cases h
    exact orElse?_satisfies (P := Settings.BallsFit) (by decide) (fun _ _ => ballsFit_of_ofTree?) hsample
  | stored text =>
    have hread : ∀ cs n, readInt64? (Text.trimChars cs) = some n → InInt64 n :=
      fun _ _ => readInt64?_inInt64
    exact ⟨MaterialInspection.Settings.setting_satisfies (P := InInt64) (by decide) hread,
      MaterialInspection.Settings.setting_satisfies (P := InInt64) (by decide) hread⟩

/-- **Sampling misuses no step but one, and gives as many samples as were asked for**, for every item,
with settings that were read, on every stream of words that is as `Draw.maxRounds` says: it stops exactly
where there is no room for so many samples. -/
theorem Checked.values_eq {s : Settings} (h : s.FromText) (item : Item) (count : Nat)
    (words : WordStream) :
    Checked.values s item count words =
      (if count ≤ capacity then .ok (s.values item count words)
        else .error (.tooManySamples count)) ∧
      (s.values item count words).1.length = count :=
  ⟨values_of_ballsFit h.ballsFit item count words, s.length_values item count words⟩

/-- Stored settings with the least cap for balls. -/
def leastCap : SettingKey → Option String
  | .tackCap => some "-9223372036854775808"
  | _ => none

/-- A tack item that asks for the largest ball. -/
def largestTack : Item := { name := "初粘性", criteria := "≥ 9223372036854775807#" }

theorem Checked.values_eq_largestTack :
    (MaterialInspection.Settings.load leastCap).sample.FromText ∧
      (MaterialInspection.Settings.load leastCap).sample.tackCap = minInt64 ∧
      (Checked.values (MaterialInspection.Settings.load leastCap).sample largestTack 2 leastWords).map
        Prod.fst = .ok ["9223372036854775807#", "9223372036854775807#"] := by
  have hread : (MaterialInspection.Settings.load leastCap).sample.FromText := .stored leastCap
  have hvalues : ((MaterialInspection.Settings.load leastCap).sample.values largestTack 2 leastWords).1 =
      ["9223372036854775807#", "9223372036854775807#"] := by decide +kernel
  refine ⟨hread, by decide +kernel, ?_⟩
  rw [(Checked.values_eq hread largestTack 2 leastWords).1, if_pos (by decide), ← hvalues]
  rfl

/-- Stored settings with the greatest size that can be read for deliveries whose packages were not
counted. -/
def greatestSize : SettingKey → Option String
  | .unknownSize => some "18446744073709551615"
  | _ => none

/-- **There is no room for as many samples as stored settings can ask for.** -/
theorem Checked.values_beyond_capacity :
    let settings := MaterialInspection.Settings.load greatestSize
    settings.sample.FromText ∧ settings.plan.size 0 = 18446744073709551615 ∧
      Checked.values settings.sample { name := "外观" } (settings.plan.size 0) leastWords =
        .error (.tooManySamples 18446744073709551615) := by
  have hread : (MaterialInspection.Settings.load greatestSize).sample.FromText := .stored greatestSize
  have hsize : (MaterialInspection.Settings.load greatestSize).plan.size 0 =
      18446744073709551615 := by decide +kernel
  refine ⟨hread, hsize, ?_⟩
  rw [values_of_ballsFit hread.ballsFit, hsize]
  exact if_neg (by decide)

/-- Settings that were not read can ask for more than a word holds. -/
example : (Checked.values { tackMinimum := maxInt64 + 1 } { name := "初粘性" } 1 leastWords).isOk = false := by
  decide +kernel

end Sample

end MaterialInspection
