import ScopeChain.Mutability
import ScopeChain.Policy
import ScopeChain.Value.Text

/-!
Events that the operations report.  An event has a level, a message and labelled fields whose values
are texts.
-/

namespace ScopeChain

/-- How much an event matters, from most to least severe. -/
inductive Level where
  | error
  | warn
  | info
  | debug
  | trace
deriving DecidableEq, Inhabited, Repr

namespace Level

/-- The place of the level in the order of severity; the most severe is first. -/
def rank : Level → Nat
  | .error => 0
  | .warn => 1
  | .info => 2
  | .debug => 3
  | .trace => 4

def label : Level → String
  | .error => "ERROR"
  | .warn => "WARN"
  | .info => "INFO"
  | .debug => "DEBUG"
  | .trace => "TRACE"

/-- Whether a reader who asks for `threshold` is told of events of this level. -/
def isWithin (level threshold : Level) : Bool :=
  level.rank ≤ threshold.rank

end Level

/-- Something that an operation reports. -/
inductive Event where
  | scopeCreated (depth : Nat)
  | globalCreated (policy : Policy)
  | defined (name : Name) (mutability : Mutability)
  | assignmentRejected (name : Name)
  | assignmentCreatedGlobal (name : Name)
  | undefinedRead (name : Name)
  | environmentCreated (policy : Policy) (maxDepth : Option UInt64)
  | environmentTornDown (released : Nat)
  | depthLimitReached (limit : UInt64)
  /-- The configuration variable `var` holds `value`, which names no policy. -/
  | unknownPolicy (var value : String)
  /-- The configuration variable `var` holds `value`, which is no limit. -/
  | invalidLimit (var value : String)
deriving DecidableEq, Inhabited, Repr

namespace Event

def level : Event → Level
  | .scopeCreated _ | .globalCreated _ | .defined _ _ => .trace
  | .assignmentRejected _ | .assignmentCreatedGlobal _ | .undefinedRead _ => .debug
  | .environmentCreated _ _ | .environmentTornDown _ | .depthLimitReached _ => .debug
  | .unknownPolicy _ _ | .invalidLimit _ _ => .warn

def message : Event → String
  | .scopeCreated _ => "scope created"
  | .globalCreated _ => "global scope created"
  | .defined _ _ => "define"
  | .assignmentRejected _ => "assignment to undeclared variable rejected"
  | .assignmentCreatedGlobal _ => "assignment created global binding"
  | .undefinedRead _ => "undefined variable"
  | .environmentCreated _ _ => "environment created"
  | .environmentTornDown _ => "environment torn down"
  | .depthLimitReached _ => "scope depth limit reached"
  | .unknownPolicy _ _ => "unknown assign policy, keeping default"
  | .invalidLimit _ _ => "invalid scope depth limit, keeping default"

/-- The labelled fields of the event. -/
def fields : Event → List (String × String)
  | .scopeCreated depth => [("depth", toString depth)]
  | .globalCreated policy => [("policy", policy.label)]
  | .defined name mutability => [("name", name.text), ("mutability", mutability.label)]
  | .assignmentRejected name | .assignmentCreatedGlobal name | .undefinedRead name =>
      [("name", name.text)]
  | .environmentCreated policy maxDepth =>
      [("policy", policy.label),
        ("max_depth", (Shape.optional (maxDepth.map fun k => .number k.toNat)).line)]
  | .environmentTornDown released => [("released", toString released)]
  | .depthLimitReached limit => [("limit", toString limit.toNat)]
  | .unknownPolicy var value | .invalidLimit var value => [("var", var), ("value", value)]

end Event

end ScopeChain
