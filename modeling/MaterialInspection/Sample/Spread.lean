import MaterialInspection.Chance
import MaterialInspection.Number.Fixed

/-!
# Values spread over a range

Two ways of drawing a value between two numbers: anywhere (`uniform`), and on the grid of a number
of decimals (`onGrid`), so that the text of the value still lies between them.

If the width of the range is beyond the largest double, `uniform` works on halves.  If the range
has no point on the grid, `onGrid` tries finer grids up to ten decimals.
-/

set_option autoImplicit false

namespace MaterialInspection.Sample

open Number

/-- The distance from one to the next double: a narrower range counts as a single point. -/
def resolution : Binary64 := .ofUnits (twoTo 1022 : Int)

/-- The point at a fraction of the way from `lo` to `hi`. -/
def interpolate (lo hi fraction : Binary64) : Binary64 :=
  let width := hi - lo
  let value :=
    if width.isFinite then lo + fraction * width
    else
      let half := lo / 2
      (half + fraction * (hi / 2 - half)) * 2
  value.clamp lo hi

/-- A value between two numbers in either order.  If only one is finite it is the value, and if none
is the value is zero. -/
def uniform (a b : Binary64) : Draw Binary64 :=
  if a.isFinite && b.isFinite then
    let (lo, hi) := if a ≤ b then (a, b) else (b, a)
    if hi - lo ≤ resolution then Draw.certain lo
    else Draw.map (interpolate lo hi) Draw.unitFraction
  else if a.isFinite then Draw.certain a
  else if b.isFinite then Draw.certain b
  else Draw.certain 0

/-- The number of grid steps in a unit. -/
def gridScale (places : Nat) : Binary64 := .ofInt (tenTo places)

/-- How far a bound may miss a grid point, in steps. -/
def gridTolerance : Binary64 := 1e-9

/-- The first number of steps that is too large to be drawn. -/
def stepLimit : Binary64 := .ofInt (twoTo 63)

/-- The first grid step in a range, as a number of steps. -/
def firstStep (places : Nat) (lo : Binary64) : Binary64 := (lo * gridScale places - gridTolerance).ceil

/-- The last grid step in a range, as a number of steps. -/
def lastStep (places : Nat) (hi : Binary64) : Binary64 := (hi * gridScale places + gridTolerance).floor

/-- A number of steps from the first to the last. -/
def drawStep (first last : Binary64) : Draw Binary64 :=
  if first.same last then Draw.certain first
  else Draw.map .ofInt (Draw.between (first.wholePart?.getD 0) (last.wholePart?.getD 0))

/-- The text of a grid point between `lo` and `hi`, on the grid of `places` decimals or, if it has
none there, on a grid that is at most `finer` decimals finer. -/
def gridText (lo hi : Binary64) (finer places : Nat) : Draw String :=
  let first := firstStep places lo
  let last := lastStep places hi
  if stepLimit ≤ first.abs ∨ stepLimit ≤ last.abs then
    Draw.map (fun x => x.toFixed places) (uniform lo hi)
  else if first ≤ last then
    Draw.map (fun step => (step / gridScale places).toFixed places) (drawStep first last)
  else
    match finer with
    | 0 => Draw.certain (lo.toFixed places)
    | finer + 1 => gridText lo hi finer (places + 1)

/-- The text of a grid point between two numbers in either order. -/
def onGrid (a b : Binary64) (places : Nat) : Draw String :=
  let (lo, hi) := if a ≤ b then (a, b) else (b, a)
  let places := min places maxPlaces
  gridText lo hi (maxPlaces - places) places

end MaterialInspection.Sample
