import ScopeChain.Store.Chain

/-!
Listings of chains.  A listing has a line for each scope of a chain, innermost first, with its depth
and the names that it binds itself.  It is a copy: what happens to the scopes later does not show.
-/

namespace ScopeChain

/-- One scope of a listing. -/
structure ListedScope where
  depth : Nat
  /-- The names that the scope binds itself, in the order of their first definition. -/
  names : List Name
deriving DecidableEq, Inhabited, Repr

namespace ListedScope

/-- The names with a comma and a space between any two. -/
def joinedNames (l : ListedScope) : String :=
  ", ".intercalate (l.names.map Name.text)

/-- Whether the scope is the global one, in a word. -/
def label (l : ListedScope) : String :=
  if l.depth = 0 then "global" else "local"

def line (l : ListedScope) : String :=
  "  " ++ toString l.depth ++ ": " ++ l.label ++ " [" ++ l.joinedNames ++ "]\n"

def shape (l : ListedScope) : Shape :=
  .record "ScopeFrame" [("depth", .number l.depth), ("names", .list (l.names.map Name.shape))]

end ListedScope

structure Listing where
  scopes : List ListedScope
deriving DecidableEq, Inhabited, Repr

namespace Listing

def empty : Listing :=
  ⟨[]⟩

def ofChain (st : Store) (s : Scope) : Listing :=
  ⟨(st.chain s).map fun t => ⟨st.depth t, st.names t⟩⟩

/-- The text of the listing: a heading and then the lines. -/
def text (l : Listing) : String :=
  "scope chain:\n" ++ String.join (l.scopes.map ListedScope.line)

def shape (l : Listing) : Shape :=
  .record "ChainDump" [("frames", .list (l.scopes.map ListedScope.shape))]

end Listing

end ScopeChain
