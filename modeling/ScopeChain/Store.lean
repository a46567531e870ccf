import ScopeChain.Bindings
import ScopeChain.Policy
import ScopeChain.Shape
import ScopeChain.Value.Text

/-!
The store of scopes.  Each scope has a frame: its bindings, the scope around it, and two facts about
its chain that are settled when it is created, the number of scopes around it and the assignment
policy.  Handles are never used twice, so a handle given to a new scope differs from all others.
-/

namespace ScopeChain

/-- What the store keeps of a scope. -/
structure Frame where
  bindings : Bindings
  /-- The scope around it; a global scope has none. -/
  parent : Option Scope
  /-- The number of scopes around it, as far as it is counted. -/
  depth : Nat
  /-- The assignment policy of its chain. -/
  policy : Policy
deriving Inhabited

structure Store where
  /-- The frame of each scope at its place, or nothing when the scope has been released. -/
  frames : Array (Option Frame)
deriving Inhabited

/-- The greatest depth that is counted. -/
def greatestDepth : Nat :=
  UInt64.size - 1

namespace Frame

/-- The frame of a new scope without a parent. -/
def global (policy : Policy) : Frame :=
  ⟨.empty, none, 0, policy⟩

/-- The frame of a new scope inside the scope `s`, whose frame is `f`. -/
def inside (s : Scope) (f : Frame) : Frame :=
  ⟨.empty, some s, min (f.depth + 1) greatestDepth, f.policy⟩

end Frame

namespace Store

def empty : Store :=
  ⟨#[]⟩

def frame? (st : Store) (s : Scope) : Option Frame :=
  st.frames[s.index]?.join

/-- Whether the store has the scope. -/
def isLive (st : Store) (s : Scope) : Bool :=
  (st.frame? s).isSome

def update (st : Store) (s : Scope) (change : Frame → Frame) : Store :=
  ⟨st.frames.modify s.index (·.map change)⟩

/-- Release a scope; its handle is not given to another. -/
def release (st : Store) (s : Scope) : Store :=
  ⟨st.frames.setIfInBounds s.index none⟩

/-- The handle that the next new scope gets. -/
def next (st : Store) : Scope :=
  ⟨st.frames.size⟩

/-- Add a frame and give its handle. -/
def add (st : Store) (f : Frame) : Store × Scope :=
  let s := st.next
  (⟨st.frames.push (some f)⟩, s)

def createGlobal (st : Store) (policy : Policy) : Store × Scope :=
  st.add (.global policy)

/-- Create a scope inside another one; without a parent in the store it is a global scope of the
default policy. -/
def createInside (st : Store) (parent : Option Scope) : Store × Scope :=
  match parent with
  | none => st.createGlobal .createGlobal
  | some s =>
      match st.frame? s with
      | none => st.createGlobal .createGlobal
      | some f => st.add (f.inside s)

def bindings (st : Store) (s : Scope) : Bindings :=
  match st.frame? s with
  | some f => f.bindings
  | none => .empty

/-- The scope around a scope. -/
def parent? (st : Store) (s : Scope) : Option Scope :=
  (st.frame? s).bind Frame.parent

/-- Whether nothing is around the scope. -/
def isGlobal (st : Store) (s : Scope) : Bool :=
  (st.parent? s).isNone

/-- The number of scopes around a scope. -/
def depth (st : Store) (s : Scope) : Nat :=
  match st.frame? s with
  | some f => f.depth
  | none => 0

def policy (st : Store) (s : Scope) : Policy :=
  match st.frame? s with
  | some f => f.policy
  | none => .createGlobal

/-- Whether the scope itself binds the name. -/
def binds (st : Store) (s : Scope) (n : Name) : Bool :=
  (st.bindings s).contains n

/-- The names that the scope itself binds, in the order of their first definition. -/
def names (st : Store) (s : Scope) : List Name :=
  (st.bindings s).names

def bind (st : Store) (s : Scope) (n : Name) (x : Binding) : Store :=
  st.update s fun f => { f with bindings := f.bindings.insert n x }

/-- Remove every binding of the scope itself. -/
def clear (st : Store) (s : Scope) : Store :=
  st.update s fun f => { f with bindings := .empty }

/-- The shape of a scope: its depth and the names that it binds itself.  What surrounds it and what
its bindings hold is left out, since both may lead back to it. -/
def scopeShape (st : Store) (s : Scope) : Shape :=
  .record "Scope"
    [("depth", .number (st.depth s)), ("locals", .list ((st.names s).map Name.shape))]

@[simp] theorem frame?_empty (s : Scope) : Store.empty.frame? s = none := rfl

theorem frame?_update (st : Store) (s t : Scope) (change : Frame → Frame) :
    (st.update s change).frame? t =
      if s = t then (st.frame? t).map change else st.frame? t := by
  cases s with
  | mk i =>
    cases t with
    | mk j =>
      simp only [frame?, update, Array.getElem?_modify, Scope.mk.injEq]
      split
      · cases st.frames[j]? <;> rfl
      · rfl

theorem frame?_release (st : Store) (s t : Scope) :
    (st.release s).frame? t = if s = t then none else st.frame? t := by
  cases s with
  | mk i =>
    cases t with
    | mk j =>
      simp only [frame?, release, Array.getElem?_setIfInBounds, Scope.mk.injEq]
      split
      · split <;> rfl
      · rfl

theorem frame?_add (st : Store) (f : Frame) (t : Scope) :
    (st.add f).1.frame? t = if t = st.next then some f else st.frame? t := by
  cases t with
  | mk j =>
    simp only [frame?, add, next, Array.getElem?_push, Scope.mk.injEq]
    split <;> rfl

theorem frame?_next (st : Store) : st.frame? st.next = none := by
  simp [frame?, next]

end Store

end ScopeChain
