/-!
Names that scopes bind.  A name is its text: names are equal when their texts are, and they are
ordered by the code points of the text, which is the order of its UTF-8 bytes.
-/

namespace ScopeChain

/-- An identifier bound in a scope. -/
structure Name where
  text : String
deriving DecidableEq, Inhabited, Repr

namespace Name

instance : Ord Name where
  compare a b := compare a.text b.text

theorem compare_eq (a b : Name) : compare a b = compare a.text b.text := rfl

instance : Std.TransOrd Name :=
  inferInstanceAs (Std.TransCmp (compareOn Name.text))

instance : Std.LawfulEqOrd Name where
  eq_of_compare {a b} h := by
    cases a
    cases b
    rw [compare_eq] at h
    simpa using h

end Name

end ScopeChain
