namespace Cloak

/-- The number `± mantissa · 2 ^ scale / 2 ^ 1074`, with a mantissa below `2 ^ 53` that is at least
`2 ^ 52` unless the scale is zero. -/
structure Binary where
  negative : Bool
  mantissa : Nat
  scale : Nat
deriving DecidableEq, Repr

namespace Binary

/-- A quotient rounded to a natural number, a half to the even one. -/
def roundEven (num den : Nat) : Nat :=
  let q := num / den
  let twice := 2 * (num % den)
  if twice < den then q else if den < twice then q + 1 else q + q % 2

def maxScale : Nat := 2045

/-- The number nearest to `num / den`, if it is finite. -/
def ofQuotient? (negative : Bool) (num den : Nat) : Option Binary :=
  let units := num * Nat.pow 2 1074
  let scale := (units / den).log2 - 52
  let m := roundEven units (den * Nat.pow 2 scale)
  let (m, scale) := if m = Nat.pow 2 53 then (Nat.pow 2 52, scale + 1) else (m, scale)
  if scale ≤ maxScale then some ⟨negative, m, scale⟩ else none

end Binary

end Cloak
