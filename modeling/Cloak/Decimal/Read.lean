import Cloak.Decimal.Binary
import Cloak.Text

namespace Cloak

/-- `± digits · 10 ^ exponent`. -/
structure Numeral where
  negative : Bool
  digits : Nat
  exponent : Int
deriving DecidableEq, Repr

namespace Numeral

def digit? (c : Char) : Option Nat :=
  if c.isDigit then some (c.toNat - '0'.toNat) else none

/-- The number that digits denote, after digits that denote `acc`. -/
def valueOf (acc : Nat) (digits : List Char) : Nat :=
  digits.foldl (fun n c => 10 * n + (c.toNat - '0'.toNat)) acc

/-- Splits a sign off a text; `true` is a minus. -/
def sign : Text → Bool × Text
  | '-' :: cs => (true, cs)
  | '+' :: cs => (false, cs)
  | cs => (false, cs)

/-- The exponent that ends a numeral, zero if nothing is left. -/
def exponent? : Text → Option Int
  | [] => some 0
  | c :: cs =>
    if c = 'e' || c = 'E' then
      let (negative, digits) := sign cs
      if digits.isEmpty || !digits.all Char.isDigit then none
      else
        let n := valueOf 0 digits
        some (if negative then -(n : Int) else n)
    else none

/-- Reads a whole text as a numeral; a digit must stand before or after the point. -/
def read? (t : Text) : Option Numeral :=
  let (negative, t) := sign t
  let whole := t.takeWhile Char.isDigit
  let afterWhole := t.dropWhile Char.isDigit
  let (fraction, tail) :=
    match afterWhole with
    | '.' :: cs => (cs.takeWhile Char.isDigit, cs.dropWhile Char.isDigit)
    | cs => ([], cs)
  if whole.isEmpty && fraction.isEmpty then none
  else
    (exponent? tail).map fun e =>
      ⟨negative, valueOf (valueOf 0 whole) fraction, e - fraction.length⟩

/-- The number nearest to a numeral, if it is finite. Magnitudes beyond `10 ^ 310` and below
`10 ^ -330` are settled without computing the power. -/
def toBinary? (n : Numeral) : Option Binary :=
  if n.digits = 0 then some ⟨n.negative, 0, 0⟩
  else
    let magnitude := (Nat.toDigits 10 n.digits).length + n.exponent
    if 310 < magnitude then none
    else if magnitude < -330 then some ⟨n.negative, 0, 0⟩
    else if 0 ≤ n.exponent then
      Binary.ofQuotient? n.negative (n.digits * Nat.pow 10 n.exponent.toNat) 1
    else
      Binary.ofQuotient? n.negative n.digits (Nat.pow 10 (-n.exponent).toNat)

end Numeral

end Cloak
