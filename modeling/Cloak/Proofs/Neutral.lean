import Cloak.Process
import Cloak.Proofs.BodyLine

namespace Cloak

/-- What a function that escapes HTML does: each special character gives way to its entity, and the
rest of a text is kept. -/
structure EscapesHtml (escapeHtml : Text → Except Text Text) : Prop where
  nil : escapeHtml [] = .ok []
  append {t u e f : Text} (ht : escapeHtml t = .ok e) (hu : escapeHtml u = .ok f) :
    escapeHtml (t ++ u) = .ok (e ++ f)
  special {p : Text × Char} (hp : p ∈ htmlEntities) : escapeHtml [p.2] = .ok p.1
  plain {c : Char} (hc : c ∉ htmlEntities.map Prod.snd) : escapeHtml [c] = .ok [c]

def entities : List (Text × Char) :=
  htmlEntities ++ [("&lbrace;".toList, '\x7b'), ("&rbrace;".toList, '\x7d')]

def entity? (t : Text) : Option (Nat × Text) :=
  entities.findSome? fun e => (Text.literal? e.1 t).map fun _ => (e.1.length, [e.2])

namespace EscapesHtml

variable {escapeHtml : Text → Except Text Text}

theorem cons (h : EscapesHtml escapeHtml) {c : Char} {t word e : Text}
    (hc : escapeHtml [c] = .ok word) (ht : escapeHtml t = .ok e) :
    escapeHtml (c :: t) = .ok (word ++ e) :=
  h.append hc ht

end EscapesHtml

namespace Element

end Element

end Cloak
