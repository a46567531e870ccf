import ScopeChain.Event

/-!
Configuration of a run: the assignment policy and the greatest depth of an entered scope.  Both can
be read from variables, independently of each other; a variable whose text is rejected leaves the
default and is reported.
-/

namespace ScopeChain

structure Config where
  policy : Policy := .createGlobal
  /-- The greatest depth of a scope that an environment enters; the global scope has depth zero. -/
  maxDepth : Option UInt64 := none
deriving DecidableEq, Inhabited, Repr

namespace Config

/-- The variable that names the assignment policy. -/
def policyVariable : String :=
  "TERN_ASSIGN_POLICY"

/-- The variable that holds the greatest depth. -/
def depthVariable : String :=
  "TERN_MAX_SCOPE_DEPTH"

/-- The limit that a child of a scope at the given depth would exceed. -/
def exceeded? (c : Config) (depth : Nat) : Option UInt64 :=
  c.maxDepth.filter fun limit => limit.toNat ≤ depth

/-- The number that decimal digits denote. -/
def ofDigits (digits : List Char) : Nat :=
  digits.foldl (fun n d => 10 * n + (d.toNat - '0'.toNat)) 0

/-- The digits of an unsigned numeral: a plus sign may stand before them. -/
def unsigned : List Char → List Char
  | '+' :: digits => digits
  | digits => digits

/-- The limit that a text denotes: a decimal numeral between blanks, positive and below `2 ^ 64`. -/
def parseLimit? (text : String) : Option UInt64 :=
  let digits := unsigned (Text.trim text.toList)
  let n := ofDigits digits
  if digits ≠ [] ∧ digits.all Char.isDigit ∧ 0 < n ∧ n < UInt64.size then some (UInt64.ofNat n)
  else none

/-- The policy that the text of its variable asks for, or else the default and a warning. -/
def readPolicy : Option String → Policy × List Event
  | none => (.createGlobal, [])
  | some raw =>
      match Policy.parse? raw with
      | some policy => (policy, [])
      | none => (.createGlobal, [.unknownPolicy policyVariable raw])

/-- The limit that the text of its variable asks for, or else none and a warning. -/
def readLimit : Option String → Option UInt64 × List Event
  | none => (none, [])
  | some raw =>
      match parseLimit? raw with
      | some limit => (some limit, [])
      | none => (none, [.invalidLimit depthVariable raw])

/-- The configuration that the variables ask for, with the warnings in the order of the variables. -/
def ofVariables (lookup : String → Option String) : Config × List Event :=
  let (policy, policyWarnings) := readPolicy (lookup policyVariable)
  let (maxDepth, depthWarnings) := readLimit (lookup depthVariable)
  (⟨policy, maxDepth⟩, policyWarnings ++ depthWarnings)

/-- The configuration that the variables of a process ask for.  Those hold bytes; a variable whose
bytes are not a text counts as unset. -/
def ofProcess (bytes : String → Option ByteArray) : Config × List Event :=
  ofVariables fun name => (bytes name).bind String.fromUTF8?

def shape (c : Config) : Shape :=
  .record "EnvConfig"
    [("assign_policy", .atom c.policy.label),
      ("max_depth", .optional (c.maxDepth.map fun k => .number k.toNat))]

end Config

end ScopeChain
