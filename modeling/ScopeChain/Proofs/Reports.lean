import ScopeChain.Proofs.GlobalScopes

/-!
What operations report.  The log only grows at its end, by the events of one operation after the
other, and the events of an operation are told by the world before it.
-/

namespace ScopeChain.World

/-- The events of an operation at the scope of a place. -/
def reportsAt (w : World) (place : Place) (events : Scope → List Event) : List Event :=
  match w.scopeAt? place with
  | some s => events s
  | none => []

/-- The event of a new scope inside the scope `s`. -/
def creationReport (w : World) (s : Scope) : Event :=
  .scopeCreated (min (w.store.depth s + 1) greatestDepth)

/-- The events of entering a child of the scope of a place. -/
def entryReports (w : World) (e : EnvironmentId) (parent : Place) : List Event :=
  match w.environment? e, w.scopeAt? parent with
  | some env, some s =>
      match env.config.exceeded? (w.store.depth s) with
      | some limit => [.depthLimitReached limit]
      | none => [w.creationReport s]
  | _, _ => []

/-- The events of an assignment: only one that finds no binding is reported. -/
def assignmentReports (w : World) (n : Name) (s : Scope) : List Event :=
  match w.store.binder? s n with
  | some _ => []
  | none =>
      if (w.store.policy (w.store.root s)).allowsUndeclared then [.assignmentCreatedGlobal n]
      else [.assignmentRejected n]

/-- The events of the end of a run. -/
def endingReports (w : World) (e : EnvironmentId) : List Event :=
  match w.environment? e with
  | some env =>
      if env.finished then [] else [.environmentTornDown (w.store.bindings env.global).size]
  | none => []

/-- The events of an operation. -/
def reports (w : World) : Action → List Event
  | .newScope => [.scopeCreated 0]
  | .newGlobal policy => [.globalCreated policy]
  | .newChild parent => w.reportsAt parent fun s => [w.creationReport s]
  | .define place n _ m => w.reportsAt place fun _ => [.defined n m]
  | .assign place n _ => w.reportsAt place (w.assignmentReports n)
  | .get place n => w.reportsAt place fun s =>
      if w.store.lookup s n = none then [.undefinedRead n] else []
  | .newEnvironment config =>
      [.globalCreated config.policy, .environmentCreated config.policy config.maxDepth]
  | .enterBlock e | .guardBlock e => w.entryReports e (.current e)
  | .enterCall e captured | .guardCall e captured => w.entryReports e (.scope captured)
  | .finish e | .discard e => w.endingReports e
  | .lookup _ _ | .contains _ _ | .binds _ _ | .mutability _ _ => []
  | .leave _ | .restore _ | .capture _ | .closure _ _ _ _ => []

/-- The log grows by these events. -/
def Logs (before after : World) (events : List Event) : Prop :=
  after.log.toList = before.log.toList ++ events

theorem logs_nil (w : World) : w.Logs w [] :=
  (List.append_nil _).symm

theorem logs_push {w w' : World} {event : Event} (h : w'.log = w.log.push event) :
    w.Logs w' [event] := by
  rw [Logs, h, Array.toList_push]

theorem logs_newScope_none (w : World) : w.Logs (w.newScope none).1 [.scopeCreated 0] := by
  apply logs_push
  have hdepth : (w.store.add (.global .createGlobal)).1.depth w.store.next = 0 := by
    simp only [Store.depth, Store.frame?_add, if_true, Frame.global]
  change w.log.push (.scopeCreated ((w.store.add (.global .createGlobal)).1.depth w.store.next)) = _
  rw [hdepth]

theorem logs_newScope {w : World} {s : Scope} (hs : w.store.isLive s = true) :
    w.Logs (w.newScope (some s)).1 [w.creationReport s] := by
  apply logs_push
  obtain ⟨g, hg⟩ := Store.isLive_iff.mp hs
  have hdepth : (w.store.add (g.inside s)).1.depth w.store.next =
      min (w.store.depth s + 1) greatestDepth := by
    simp only [Store.depth, Store.frame?_add, hg, if_true, Frame.inside]
  simp only [newScope, Store.createInside, hg, creationReport, ← hdepth]
  rfl

theorem logs_endRun (w : World) (e : EnvironmentId) :
    w.Logs (w.endRun e).1 (w.endingReports e) := by
  unfold endRun endingReports
  cases w.environment? e with
  | none => exact w.logs_nil
  | some env =>
      dsimp only
      split
      · exact w.logs_nil
      · exact logs_push rfl

theorem logs_performAt {w : World} {place : Place} {operation : World → Scope → World × Result}
    {events : Scope → List Event} (h : ∀ s, w.scopeAt? place = some s →
      w.Logs (operation w s).1 (events s)) :
    w.Logs (w.performAt place operation).1 (w.reportsAt place events) := by
  unfold performAt reportsAt
  cases hs : w.scopeAt? place with
  | none => exact w.logs_nil
  | some s => exact h s hs

theorem logs_reading (w : World) (place : Place) (answer : Scope → Result) :
    w.Logs (w.performAt place fun w s => (w, answer s)).1 [] := by
  unfold performAt
  split <;> exact w.logs_nil

namespace Sound

variable {w : World}

theorem logs_assign (h : w.Sound) (s : Scope) (n : Name) (v : Value) :
    w.Logs (w.assign s n v).1 (w.assignmentReports n s) := by
  have hassign := h.store.assign_eq s n v
  rw [assignmentReports, World.assign]
  cases hb : w.store.binder? s n with
  | some b =>
      rw [hb] at hassign
      dsimp only at hassign ⊢
      split at hassign <;> (rw [hassign]; exact w.logs_nil)
  | none =>
      rw [hb] at hassign
      dsimp only at hassign ⊢
      split at hassign
      · rename_i hallows
        rw [hassign, if_pos hallows]
        exact logs_push rfl
      · rename_i hallows
        rw [hassign, if_neg hallows]
        exact logs_push rfl

theorem logs_performEntry (h : w.Sound) (e : EnvironmentId) (parent : Place)
    (answer : Environment → Result) :
    w.Logs (w.performEntry e parent answer).1 (w.entryReports e parent) := by
  cases he : w.environment? e with
  | none =>
      rw [performEntry_of_absent (.inl he), entryReports, he]
      exact w.logs_nil
  | some env =>
      cases hs : w.scopeAt? parent with
      | none =>
          rw [performEntry_of_absent (.inr hs), entryReports, he, hs]
          exact w.logs_nil
      | some s =>
          rw [performEntry_eq he hs, entryReports, he, hs]
          dsimp only
          cases env.config.exceeded? (w.store.depth s) with
          | some limit => exact logs_push rfl
          | none => exact logs_newScope (h.isLive_scopeAt? hs)

/-- An operation adds its events to the log and nothing else. -/
theorem logs_perform (h : w.Sound) (a : Action) : w.Logs (w.perform a).1 (w.reports a) := by
  cases a with
  | newScope => exact w.logs_newScope_none
  | newGlobal policy => exact logs_push rfl
  | newChild parent => exact logs_performAt fun s hs => logs_newScope (h.isLive_scopeAt? hs)
  | define place n v m => exact logs_performAt fun s _ => logs_push rfl
  | assign place n v =>
      refine logs_performAt fun s _ => ?_
      have hlogs := h.logs_assign s n v
      split <;> (rename_i heq; rw [heq] at hlogs; exact hlogs)
  | get place n =>
      refine logs_performAt fun s _ => ?_
      cases hv : w.store.lookup s n with
      | none =>
          rw [get_of_unbound hv]
          exact logs_push rfl
      | some v =>
          rw [get_of_lookup hv]
          exact w.logs_nil
  | lookup place n => exact w.logs_reading place _
  | contains place n => exact w.logs_reading place _
  | binds place n => exact w.logs_reading place _
  | mutability place n => exact w.logs_reading place _
  | newEnvironment config =>
      change (w.log.push _ |>.push _).toList = _
      rw [Array.toList_push, Array.toList_push, List.append_assoc]
      rfl
  | enterBlock e => exact h.logs_performEntry e _ _
  | enterCall e captured => exact h.logs_performEntry e _ _
  | leave e =>
      simp only [World.perform]
      split <;> exact w.logs_nil
  | guardBlock e => exact h.logs_performEntry e _ _
  | guardCall e captured => exact h.logs_performEntry e _ _
  | restore g => exact w.logs_nil
  | capture e => exact w.logs_reading _ _
  | closure e name params body =>
      simp only [World.perform]
      split <;> exact w.logs_nil
  | finish e =>
      simp only [World.perform]
      cases he : w.environment? e with
      | none =>
          rw [reports, endingReports, he]
          exact w.logs_nil
      | some env =>
          change w.Logs ((w.endRun e).1.endRun e).1 _
          rw [endRun_of_finished fun _ => finished_of_endRun]
          exact w.logs_endRun e
  | discard e => exact w.logs_endRun e

end Sound

end ScopeChain.World
