import ScopeChain.Binary64
import ScopeChain.Closure

/-!
Values of the interpreted language.  Texts and lists live in payloads of their own: each one made
anew has an allocation of its own, and a copy of the value shares it.  Equality looks at the
contents and not at the allocations, compares numbers as numbers, closures by body and captured
scope, and host functions by name.
-/

namespace ScopeChain

/-- The identity of the payload of a text or a list. -/
structure Allocation where
  index : Nat
deriving DecidableEq, Inhabited, Repr

inductive Value where
  | int (n : Int64)
  | float (x : Binary64)
  | bool (b : Bool)
  | text (payload : Allocation) (content : String)
  | void
  | list (payload : Allocation) (items : List Value)
  | function (f : Closure)
  /-- A host function, under the name by which it is registered. -/
  | builtin (name : String)
deriving Inhabited, Repr

namespace Value

mutual

def equals : Value → Value → Bool
  | .int m, .int n => m == n
  | .float x, .float y => x.equals y
  | .bool b, .bool c => b == c
  | .text _ s, .text _ t => s == t
  | .void, .void => true
  | .list _ xs, .list _ ys => allEqual xs ys
  | .function f, .function g => f.equals g
  | .builtin m, .builtin n => m == n
  | _, _ => false

/-- Equality of lists, item by item. -/
def allEqual : List Value → List Value → Bool
  | [], [] => true
  | x :: xs, y :: ys => x.equals y && allEqual xs ys
  | _, _ => false

end

instance : BEq Value := ⟨equals⟩

theorem beq_eq (a b : Value) : (a == b) = a.equals b := rfl

/-- Whether two texts or two lists have one payload; `none` for any other pair of values. -/
def samePayload? : Value → Value → Option Bool
  | .text p _, .text q _ => some (p == q)
  | .list p _, .list q _ => some (p == q)
  | _, _ => none

/-- Whether a condition takes the value for true. -/
def truth : Value → Bool
  | .bool b => b
  | .int n => n != 0
  | .float x => !x.isZero
  | .text _ s => !s.isEmpty
  | .list _ items => !items.isEmpty
  | .void => false
  | .function _ | .builtin _ => true

def canBeCalled : Value → Bool
  | .function _ | .builtin _ => true
  | _ => false

def int? : Value → Option Int64
  | .int n => some n
  | _ => none

/-- The value as a number in floating point; an integer only when the number is exact. -/
def float? : Value → Option Binary64
  | .float x => some x
  | .int n => Binary64.ofInt? n.toInt
  | _ => none

def bool? : Value → Option Bool
  | .bool b => some b
  | _ => none

def text? : Value → Option String
  | .text _ s => some s
  | _ => none

def list? : Value → Option (List Value)
  | .list _ items => some items
  | _ => none

def closure? : Value → Option Closure
  | .function f => some f
  | _ => none

/-- The name of the type of the value. -/
def kind : Value → String
  | .int _ => "int"
  | .float _ => "float"
  | .bool _ => "bool"
  | .text _ _ => "str"
  | .void => "void"
  | .list _ _ => "list"
  | .function _ => "function"
  | .builtin _ => "builtin"

end Value

end ScopeChain
