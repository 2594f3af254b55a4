import Cloak.Span.Outermost

namespace Cloak

/-- A text of the same length in bytes: line feeds stay, every other byte becomes an `x`. -/
def blot : Text → Text
  | [] => []
  | c :: cs => (if c = '\n' then ['\n'] else Text.repeated c.utf8Size 'x') ++ blot cs

def maskFrom (document : Text) : Nat → List Span → Text
  | reached, [] => (document.from? reached).getD []
  | reached, s :: ss =>
    document.slice reached s.start ++ blot (s.text document) ++ maskFrom document s.stop ss

/-- The document with the outermost of some ranges blotted. -/
def mask (document : Text) (opaqueSpans : List Span) : Text :=
  maskFrom document 0 (outermost id opaqueSpans)

end Cloak
