import Cloak.Text

namespace Cloak

/-- What stands on one side of a placeholder. -/
inductive Pad where
  | one (present : Bool)
  | newlines (count : Nat)
  | text (text : Text)
deriving DecidableEq, Repr

/-- The text of a pad: `one` is one newline or nothing. -/
def Pad.render : Pad → Text
  | one present => if present then ['\n'] else []
  | newlines count => Text.repeated count '\n'
  | text t => t

/-- The same pad on both sides, or one for each side. -/
inductive Padding where
  | both (pad : Pad)
  | sides (left right : Pad)
deriving DecidableEq, Repr

namespace Padding

def left : Padding → Pad
  | both p => p
  | sides l _ => l

def right : Padding → Pad
  | both p => p
  | sides _ r => r

def none : Padding :=
  both (.one false)

def default : Padding :=
  both (.one true)

end Padding

/-- A text between its pads; without padding given, one newline stands on each side. -/
def padText (t : Text) (padding : Option Padding) : Text :=
  let p := padding.getD Padding.default
  p.left.render ++ t ++ p.right.render

end Cloak
