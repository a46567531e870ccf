/-!
Shapes: the outline of a datum as its constructors, fields and items.  A shape is written either on
one line or over several lines, each item then on a line of its own, indented by four columns more
than what holds it, with a comma after it.
-/

namespace ScopeChain

/-- The outline of a datum. -/
inductive Shape where
  /-- A text shown as it is, always on one line. -/
  | atom (text : String)
  | wrap (name : String) (item : Shape)
  /-- A constructor with labelled fields. -/
  | record (name : String) (fields : List (String × Shape))
  | list (items : List Shape)
deriving Inhabited

namespace Shape

def number (n : Nat) : Shape :=
  .atom (toString n)

/-- An optional item: `None`, or `Some` around it. -/
def optional : Option Shape → Shape
  | none => .atom "None"
  | some s => .wrap "Some" s

mutual

/-- The shape on one line. -/
def line : Shape → String
  | .atom text => text
  | .wrap name item => name ++ "(" ++ item.line ++ ")"
  | .record name fields => name ++ " \x7b " ++ ", ".intercalate (labelledLines fields) ++ " \x7d"
  | .list items => "[" ++ ", ".intercalate (lines items) ++ "]"

/-- The items on a line each. -/
def lines : List Shape → List String
  | [] => []
  | item :: rest => item.line :: lines rest

/-- The fields on a line each, after their labels. -/
def labelledLines : List (String × Shape) → List String
  | [] => []
  | (label, item) :: rest => (label ++ ": " ++ item.line) :: labelledLines rest

end

/-- A new line, indented by four columns a level. -/
def newLine (level : Nat) : String :=
  "\n" ++ String.ofList (List.replicate (4 * level) ' ')

mutual

/-- The shape over several lines; `level` is the indentation of the line on which it begins. -/
def block (level : Nat) : Shape → String
  | .atom text => text
  | .wrap name item =>
      name ++ "(" ++ newLine (level + 1) ++ item.block (level + 1) ++ "," ++ newLine level ++ ")"
  | .record name fields =>
      name ++ " \x7b" ++ String.join (labelledBlocks (level + 1) fields) ++ newLine level ++ "\x7d"
  | .list [] => "[]"
  | .list (item :: rest) =>
      "[" ++ String.join (blocks (level + 1) (item :: rest)) ++ newLine level ++ "]"

/-- The items, each on a line of its own and with a comma after it. -/
def blocks (level : Nat) : List Shape → List String
  | [] => []
  | item :: rest => (newLine level ++ item.block level ++ ",") :: blocks level rest

/-- The fields, each on a line of its own, after its label and with a comma after it. -/
def labelledBlocks (level : Nat) : List (String × Shape) → List String
  | [] => []
  | (label, item) :: rest =>
      (newLine level ++ label ++ ": " ++ item.block level ++ ",") :: labelledBlocks level rest

end

/-- The shape over several lines, from the left margin. -/
def pretty (s : Shape) : String :=
  s.block 0

theorem lines_eq_map (items : List Shape) : lines items = items.map line := by
  induction items with
  | nil => rfl
  | cons item rest ih => simp [lines, ih]

theorem labelledLines_eq_map (fields : List (String × Shape)) :
    labelledLines fields = fields.map fun f => f.1 ++ ": " ++ f.2.line := by
  induction fields with
  | nil => rfl
  | cons field rest ih => simp [labelledLines, ih]

end Shape

end ScopeChain
