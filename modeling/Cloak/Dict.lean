import Cloak.Text

namespace Cloak

/-- Entries in strictly ascending order of their keys. -/
abbrev Dict (α : Type) := List (Text × α)

namespace Dict

def insert (key : Text) (value : α) : Dict α → Dict α
  | [] => [(key, value)]
  | (k, v) :: rest =>
    if key = k then (key, value) :: rest
    else if key < k then (key, value) :: (k, v) :: rest
    else (k, v) :: insert key value rest

def find? (d : Dict α) (key : Text) : Option α :=
  (List.find? (fun entry => entry.1 == key) d).map Prod.snd

/-- The entries of a list; of two with one key the later stays. -/
def ofList (entries : List (Text × α)) : Dict α :=
  entries.foldl (fun d entry => insert entry.1 entry.2 d) []

/-- The entries of both dictionaries; those of `later` win. -/
def merge (d later : Dict α) : Dict α :=
  later.foldl (fun d entry => insert entry.1 entry.2 d) d

def keys (d : Dict α) : List Text :=
  d.map Prod.fst

end Dict

end Cloak
