import Std.Data.TreeMap.Basic
import ScopeChain.Mutability
import ScopeChain.Value

/-!
The bindings of one scope, in the order of their first definition.  An index finds the slot of a
name, and the slots hold the bindings in order: a name that is bound again keeps its slot.
-/

namespace ScopeChain

/-- What a name is bound to, and whether it can be assigned. -/
structure Binding where
  value : Value
  mutability : Mutability
deriving Inhabited, Repr

structure Bindings where
  /-- The slot of each bound name. -/
  index : Std.TreeMap Name Nat
  /-- The names and their bindings, in the order of their first definition. -/
  slots : Array (Name × Binding)
deriving Inhabited

namespace Bindings

def empty : Bindings :=
  ⟨∅, #[]⟩

def contains (b : Bindings) (n : Name) : Bool :=
  b.index.contains n

/-- The slot that holds the binding of a name. -/
def slot? (b : Bindings) (n : Name) : Option Nat :=
  b.index[n]?.filter (· < b.slots.size)

def find? (b : Bindings) (n : Name) : Option Binding :=
  (b.slot? n).bind fun i => b.slots[i]?.map Prod.snd

/-- Bind a name: in its slot when it is bound, in a new slot at the end when it is not. -/
def insert (b : Bindings) (n : Name) (x : Binding) : Bindings :=
  match b.slot? n with
  | some i => { b with slots := b.slots.modify i fun e => (e.1, x) }
  | none => ⟨b.index.insert n b.slots.size, b.slots.push (n, x)⟩

/-- Give a bound name another value; its mutability and its slot stay. -/
def assign (b : Bindings) (n : Name) (v : Value) : Bindings :=
  match b.slot? n with
  | some i => { b with slots := b.slots.modify i fun e => (e.1, { e.2 with value := v }) }
  | none => b

/-- The names with their bindings, in order. -/
def toList (b : Bindings) : List (Name × Binding) :=
  b.slots.toList

def names (b : Bindings) : List Name :=
  b.toList.map Prod.fst

def values (b : Bindings) : List Value :=
  b.toList.map fun e => e.2.value

def size (b : Bindings) : Nat :=
  b.slots.size

@[simp] theorem length_toList (b : Bindings) : b.toList.length = b.size := by
  simp [toList, size]

@[simp] theorem length_names (b : Bindings) : b.names.length = b.size := by
  simp [names]

end Bindings

end ScopeChain
