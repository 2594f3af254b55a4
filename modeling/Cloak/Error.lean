import Cloak.Span

namespace Cloak

/-- Why a document cannot be edited or read. -/
inductive EscapeError where
  | outOfBounds (span : Span) (length : Nat)
  | notCharBoundary (span : Span)
  | overlappingEdit (span : Span)
  | unclosedElement (tag : Text) (offset : Nat) (length : Nat)
deriving DecidableEq, Repr

namespace EscapeError

def message : EscapeError → String
  | outOfBounds s length =>
    "range " ++ toString s.start ++ ".." ++ toString s.stop ++
      " is out of bounds for a document of length " ++ toString length
  | notCharBoundary s =>
    "range " ++ toString s.start ++ ".." ++ toString s.stop ++
      " does not fall on character boundaries"
  | overlappingEdit s =>
    "overwrite of " ++ toString s.start ++ ".." ++ toString s.stop ++
      " overlaps an earlier overwrite"
  | unclosedElement tag offset _ =>
    "<" ++ String.ofList tag ++ "> opened at byte " ++ toString offset ++ " is never closed"

def code : EscapeError → String
  | outOfBounds .. => "weaver_escape::rewrite::out_of_bounds"
  | notCharBoundary .. => "weaver_escape::rewrite::char_boundary"
  | overlappingEdit .. => "weaver_escape::rewrite::overlap"
  | unclosedElement .. => "weaver_escape::parse::unclosed_element"

def help : EscapeError → Option String
  | unclosedElement tag .. =>
    some ("close the element with </" ++ String.ofList tag ++ "> or make it self-closing")
  | _ => none

end EscapeError

inductive ProcessError where
  | backend (kind message : Text)
  | unsupported (kind : Text)
deriving DecidableEq, Repr

namespace ProcessError

def message : ProcessError → String
  | backend kind message =>
    String.ofList kind ++ " processor failed: " ++ String.ofList message
  | unsupported kind => "no " ++ String.ofList kind ++ " processor is configured"

def code : ProcessError → String
  | backend .. => "weaver_escape::process::backend"
  | unsupported .. => "weaver_escape::process::unsupported"

end ProcessError

end Cloak
