import ScopeChain.Store

/-!
Reclaiming scopes.  The handles to a scope are those held outside the store, the links of the scopes
inside it, and those of the closures in bindings and in lists; the handles to the payload of a list
are the values that share it.  When a last handle is dropped, what it kept is given back, and the
handles in there are dropped in turn.  Chains of handles may be as long as the store, so the handles
that are still to be dropped wait on two lists, one of scopes and one of values.

Each turn drops one waiting handle.  It either lowers the number of handles or, when it drops none,
shortens the lists, so the work comes to an end on every store, with cycles or without.
-/

namespace ScopeChain

/-- What a value holds a handle to. -/
inductive Held where
  | nothing
  | scope (s : Scope)
  | payload (a : Allocation) (items : List Value)
deriving Inhabited, Repr

/-- What the value holds a handle to. -/
def Value.held : Value → Held
  | .function f => .scope f.captured
  | .list a items => .payload a items
  | _ => .nothing

/-- How many handles there are to each scope and to the payload of each list. -/
structure Census where
  scopes : Array Nat
  payloads : Array Nat
deriving Inhabited, Repr

namespace Census

def empty (scopes payloads : Nat) : Census :=
  ⟨Array.replicate scopes 0, Array.replicate payloads 0⟩

def ofScope (c : Census) (s : Scope) : Nat :=
  c.scopes[s.index]?.getD 0

def ofPayload (c : Census) (a : Allocation) : Nat :=
  c.payloads[a.index]?.getD 0

def addScope (c : Census) (s : Scope) : Census :=
  { c with scopes := c.scopes.modify s.index (· + 1) }

def addPayload (c : Census) (a : Allocation) : Census :=
  { c with payloads := c.payloads.modify a.index (· + 1) }

def dropScope (c : Census) (s : Scope) : Census :=
  { c with scopes := c.scopes.modify s.index (· - 1) }

def dropPayload (c : Census) (a : Allocation) : Census :=
  { c with payloads := c.payloads.modify a.index (· - 1) }

mutual

/-- Count the handle of a value, and those in its payload when it is met for the first time. -/
def addValue (c : Census) : Value → Census
  | .function f => c.addScope f.captured
  | .list a items => if c.ofPayload a = 0 then addValues (c.addPayload a) items else c.addPayload a
  | .int _ | .float _ | .bool _ | .text _ _ | .void | .builtin _ => c

def addValues (c : Census) : List Value → Census
  | [] => c
  | v :: rest => addValues (addValue c v) rest

end

/-- Count the handles of a frame, if there is one. -/
def addFrame (c : Census) : Option Frame → Census
  | none => c
  | some f => (f.parent.toList.foldl addScope c).addValues f.bindings.values

/-- Count the handles in a store with `payloads` allocations and those held outside. -/
def ofStore (st : Store) (payloads : Nat) (scopes : List Scope) (values : List Value) : Census :=
  let stored := st.frames.foldl addFrame (.empty st.frames.size payloads)
  (scopes.foldl addScope stored).addValues values

def total (c : Census) : Nat :=
  c.scopes.toList.foldr (· + ·) 0 + c.payloads.toList.foldr (· + ·) 0

theorem foldr_modify_lt {counts : List Nat} {i k : Nat} (h : counts[i]? = some (k + 1)) :
    (counts.modify i (· - 1)).foldr (· + ·) 0 < counts.foldr (· + ·) 0 := by
  induction counts generalizing i with
  | nil => simp at h
  | cons n rest ih =>
      cases i with
      | zero =>
          simp only [List.getElem?_cons_zero, Option.some.injEq] at h
          simp [h]
      | succ i =>
          have hlt := ih (by simpa using h)
          simp only [List.modify_succ_cons, List.foldr_cons]
          omega

theorem total_dropScope_lt {c : Census} {s : Scope} (h : c.ofScope s ≠ 0) :
    (c.dropScope s).total < c.total := by
  obtain ⟨k, hk⟩ := Nat.exists_eq_succ_of_ne_zero h
  have hs : c.scopes.toList[s.index]? = some (k + 1) := by
    rw [Array.getElem?_toList]
    unfold ofScope at hk
    cases hc : c.scopes[s.index]? <;> simp_all
  simpa [total, dropScope] using foldr_modify_lt hs

theorem total_dropPayload_lt {c : Census} {a : Allocation} (h : c.ofPayload a ≠ 0) :
    (c.dropPayload a).total < c.total := by
  obtain ⟨k, hk⟩ := Nat.exists_eq_succ_of_ne_zero h
  have hs : c.payloads.toList[a.index]? = some (k + 1) := by
    rw [Array.getElem?_toList]
    unfold ofPayload at hk
    cases hc : c.payloads[a.index]? <;> simp_all
  simpa [total, dropPayload] using foldr_modify_lt hs

end Census

namespace Store

/-- Drop the handles that wait on the two lists, and all handles that this sets free.  The census
counts the waiting handles too.  A handle set free waits before those that were there, the last of
them first. -/
def reclaim (st : Store) (c : Census) (scopes : List Scope) (values : List Value) :
    Store × Census :=
  match values with
  | v :: values =>
      match v.held with
      | .nothing => reclaim st c scopes values
      | .scope s => reclaim st c (s :: scopes) values
      | .payload a items =>
          if h : c.ofPayload a = 0 then reclaim st c scopes values
          else
            have := Census.total_dropPayload_lt h
            if c.ofPayload a = 1 then reclaim st (c.dropPayload a) scopes (items.reverse ++ values)
            else reclaim st (c.dropPayload a) scopes values
  | [] =>
      match scopes with
      | [] => (st, c)
      | s :: scopes =>
          if h : c.ofScope s = 0 then reclaim st c scopes []
          else
            have := Census.total_dropScope_lt h
            if c.ofScope s = 1 then
              match st.frame? s with
              | none => reclaim st (c.dropScope s) scopes []
              | some f =>
                  reclaim (st.release s) (c.dropScope s) (f.parent.toList ++ scopes)
                    f.bindings.values.reverse
            else reclaim st (c.dropScope s) scopes []
termination_by (c.total, 2 * values.length + scopes.length)

end Store

end ScopeChain
