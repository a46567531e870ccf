import ScopeChain.Binary64.Text
import ScopeChain.Shape
import ScopeChain.Text.Quoted
import ScopeChain.Value

/-!
The texts of values.  The display of a value is what a program of the language prints; its shape is
what a reader of a trace wants to see, with texts quoted and every constructor named.
-/

namespace ScopeChain

/-- A name, always on one line. -/
def Name.shape (n : Name) : Shape :=
  .atom ("Name(" ++ Text.quote n.text ++ ")")

def Body.shape (b : Body) : Shape :=
  .wrap "BodyId" (.number b.number.toNat)

/-- The shape of a closure; `view` gives that of the captured scope. -/
def Closure.shape (view : Scope → Shape) (f : Closure) : Shape :=
  .record "FunctionValue"
    [("name", .optional (f.name.map Name.shape)), ("params", .list (f.params.map Name.shape)),
      ("body", f.body.shape), ("captured", view f.captured)]

namespace Value

mutual

/-- What a program prints for the value; texts stand between double quotes, as they are. -/
def display : Value → String
  | .int n => toString n.toInt
  | .float x => x.display
  | .bool b => toString b
  | .text _ s => "\"" ++ s ++ "\""
  | .void => "void"
  | .list _ items => "[" ++ ", ".intercalate (displays items) ++ "]"
  | .function f =>
      match f.name with
      | some n => "<function " ++ n.text ++ ">"
      | none => "<function>"
  | .builtin name => "<builtin " ++ name ++ ">"

def displays : List Value → List String
  | [] => []
  | item :: rest => item.display :: displays rest

end

mutual

/-- The shape of a value; `view` gives that of a captured scope. -/
def shape (view : Scope → Shape) : Value → Shape
  | .int n => .wrap "Int" (.atom (toString n.toInt))
  | .float x => .wrap "Float" (.atom x.precise)
  | .bool b => .wrap "Bool" (.atom (toString b))
  | .text _ s => .wrap "Str" (.atom (Text.quote s))
  | .void => .atom "Void"
  | .list _ items => .wrap "List" (.list (shapes view items))
  | .function f => .wrap "Function" (f.shape view)
  | .builtin name => .wrap "Builtin" (.atom (Text.quote name))

def shapes (view : Scope → Shape) : List Value → List Shape
  | [] => []
  | item :: rest => item.shape view :: shapes view rest

end

theorem displays_eq_map (items : List Value) : displays items = items.map display := by
  induction items with
  | nil => rfl
  | cons item rest ih => simp [displays, ih]

theorem shapes_eq_map (view : Scope → Shape) (items : List Value) :
    shapes view items = items.map (shape view) := by
  induction items with
  | nil => rfl
  | cons item rest ih => simp [shapes, ih]

end Value

end ScopeChain
