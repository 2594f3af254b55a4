import Cloak.Decimal.Binary
import Cloak.Text

namespace Cloak

namespace Binary

/-- A decimal: `value / 10 ^ places`. -/
structure Digits where
  value : Nat
  places : Int
deriving DecidableEq, Repr

/-- The number of quarter units in one: on quarters of the finest spacing, a number and the
midpoints to its neighbours are whole. -/
def quarterUnit : Nat := 4 * Nat.pow 2 1074

/-- The number itself on the quarter grid. -/
def quarters (x : Binary) : Nat :=
  4 * x.mantissa * Nat.pow 2 x.scale

/-- The least point of the quarter grid that may round to the number: half way to the number below,
which is nearer at a power of two. -/
def lower (x : Binary) : Nat :=
  let gap := if x.mantissa = Nat.pow 2 52 && 0 < x.scale then 1 else 2
  (4 * x.mantissa - gap) * Nat.pow 2 x.scale

/-- The greatest point of the quarter grid that may round to the number. -/
def upper (x : Binary) : Nat :=
  (4 * x.mantissa + 2) * Nat.pow 2 x.scale

/-- Whether `num / den` rounds to the number; the ends of the interval do when the mantissa is
even. -/
def admits (x : Binary) (num den : Nat) : Bool :=
  let v := num * quarterUnit
  if x.mantissa % 2 = 0 then
    decide (x.lower * den ≤ v) && decide (v ≤ x.upper * den)
  else
    decide (x.lower * den < v) && decide (v < x.upper * den)

/-- The point of the grid with `places` decimal places that is nearest to the number among the two
around it that read back as the number; a tie goes to the greater. -/
def onGrid? (x : Binary) (places : Int) : Option Digits :=
  let num := Nat.pow 10 places.toNat
  let den := Nat.pow 10 (-places).toNat
  let low := x.quarters * num / (quarterUnit * den)
  let below := x.admits (low * den) num
  let above := x.admits ((low + 1) * den) num
  let nearerBelow := decide (2 * (x.quarters * num) < (2 * low + 1) * (quarterUnit * den))
  if below && (nearerBelow || !above) then some ⟨low, places⟩
  else if above then some ⟨low + 1, places⟩
  else none

/-- The first grid of at most `fuel` finer and finer ones that has a point for the number. -/
def search (x : Binary) : Nat → Int → Digits
  | 0, places => ⟨x.quarters * Nat.pow 10 places.toNat / quarterUnit, places⟩
  | fuel + 1, places =>
    match x.onGrid? places with
    | some d => d
    | none => search x fuel (places + 1)

/-- The decimal places of a grid that is coarser than the number by many orders of magnitude. -/
def coarsest (x : Binary) : Int :=
  -(((x.scale : Int) - 1020) * 3 / 10) - 20

/-- The shortest digits that read back as the number, the nearest ones of that length. -/
def shortest (x : Binary) : Digits :=
  search x 400 x.coarsest

def Digits.toText (d : Digits) : Text :=
  let digits := Nat.toDigits 10 d.value
  if d.places ≤ 0 then digits ++ Text.repeated (-d.places).toNat '0'
  else
    let places := d.places.toNat
    if places < digits.length then
      digits.take (digits.length - places) ++ '.' :: digits.drop (digits.length - places)
    else
      '0' :: '.' :: Text.repeated (places - digits.length) '0' ++ digits

/-- The text of a number: the shortest digits that read back, with the sign of a negative zero. -/
def toText (x : Binary) : Text :=
  let body := if x.mantissa = 0 then ['0'] else x.shortest.toText
  if x.negative then '-' :: body else body

end Binary

end Cloak
