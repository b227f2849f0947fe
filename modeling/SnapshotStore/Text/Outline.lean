namespace SnapshotStore

/-- The shape of a value as it is shown to a developer. -/
inductive Outline where
  | atom (text : String)
  | tuple (name : String) (items : List Outline)
  | record (name : String) (fields : List (String × Outline))
  | list (items : List Outline)

namespace Outline

def nat (n : Nat) : Outline := .atom (toString n)

def word (x : UInt64) : Outline := .nat x.toNat

def flag (b : Bool) : Outline := .atom (if b then "true" else "false")

def separated : List String → String
  | [] => ""
  | s :: rest => rest.foldl (fun acc t => acc ++ ", " ++ t) s

mutual

def compact : Outline → String
  | .atom text => text
  | .tuple name items => name ++ "(" ++ separated (compactItems items) ++ ")"
  | .record name fields => name ++ " \x7b " ++ separated (compactFields fields) ++ " \x7d"
  | .list items => "[" ++ separated (compactItems items) ++ "]"

def compactItems : List Outline → List String
  | [] => []
  | o :: rest => compact o :: compactItems rest

def compactFields : List (String × Outline) → List String
  | [] => []
  | (name, o) :: rest => (name ++ ": " ++ compact o) :: compactFields rest

end

def indented (lead : String) (lines : List String) : String :=
  lines.foldl (fun acc line => acc ++ "\n    " ++ lead ++ line ++ ",") ""

mutual

/-- One item per line, four more blanks for each level, and a comma after every item. -/
def pretty (lead : String) : Outline → String
  | .atom text => text
  | .tuple name items =>
    name ++ "(" ++ indented lead (prettyItems ("    " ++ lead) items) ++ "\n" ++ lead ++ ")"
  | .record name fields =>
    name ++ " \x7b" ++ indented lead (prettyFields ("    " ++ lead) fields) ++ "\n" ++ lead ++ "\x7d"
  | .list [] => "[]"
  | .list (o :: rest) =>
    "[" ++ indented lead (pretty ("    " ++ lead) o :: prettyItems ("    " ++ lead) rest) ++
      "\n" ++ lead ++ "]"

def prettyItems (lead : String) : List Outline → List String
  | [] => []
  | o :: rest => pretty lead o :: prettyItems lead rest

def prettyFields (lead : String) : List (String × Outline) → List String
  | [] => []
  | (name, o) :: rest => (name ++ ": " ++ pretty lead o) :: prettyFields lead rest

end

def render (spread : Bool) (o : Outline) : String :=
  if spread then o.pretty "" else o.compact

end Outline

end SnapshotStore
