import ScopeChain.Proofs.WorldSoundness
import Mathlib.Data.List.DropRight

/-!
Histories of runs.  Whatever an operation is and whichever handle it works through, it makes one
change to the store: a scope is created, a name is defined or assigned in one scope, or one scope is
emptied.  The history of a run lists these changes, and the store is what they add up to.
-/

namespace ScopeChain

/-- What an operation does to the store. -/
inductive Change where
  | none
  /-- A new scope has this frame. -/
  | created (f : Frame)
  /-- The scope binds the name anew, by a definition or by an assignment that found no binding. -/
  | defined (s : Scope) (n : Name) (x : Binding)
  /-- The binding that the scope had has another value. -/
  | assigned (s : Scope) (n : Name) (v : Value)
  /-- The scope binds nothing any more. -/
  | emptied (s : Scope)

namespace Change

/-- The store after a change. -/
def apply (st : Store) : Change → Store
  | none => st
  | created f => (st.add f).1
  | defined s n x => st.bind s n x
  | assigned s n v => st.rebind s fun b => b.assign n v
  | emptied s => st.clear s

/-- Whether the change empties the scope. -/
def empties (s : Scope) : Change → Bool
  | emptied t => t = s
  | _ => false

/-- The value that the change writes to the name in the scope. -/
def value? (s : Scope) (n : Name) : Change → Option Value
  | defined t m x => if t = s ∧ m = n then some x.value else .none
  | assigned t m v => if t = s ∧ m = n then some v else .none
  | _ => .none

/-- The value that the change writes, wherever that is. -/
def written? : Change → Option Value
  | defined _ _ x => some x.value
  | assigned _ _ v => some v
  | _ => .none

/-- The mutability that the change gives to the name in the scope.  Only a definition gives one. -/
def mutability? (s : Scope) (n : Name) : Change → Option Mutability
  | defined t m x => if t = s ∧ m = n then some x.mutability else .none
  | _ => .none

/-- The name that the change defines in the scope. -/
def name? (s : Scope) : Change → Option Name
  | defined t m _ => if t = s then some m else .none
  | _ => .none

/-- The names that the scope binds after the change, when it bound `before`: a name that is new goes
to the end. -/
def names (s : Scope) (c : Change) (before : List Name) : List Name :=
  if c.empties s then []
  else
    match c.name? s with
    | some n => if n ∈ before then before else before ++ [n]
    | .none => before

/-- The change fits the store: a new scope is empty, and what is written is written in a scope that
is there. -/
def Fits (st : Store) : Change → Prop
  | none => True
  | created f => f.bindings = .empty
  | defined s _ _ => st.isLive s = true
  | assigned s n _ => st.binds s n = true
  | emptied _ => True

theorem written?_of_value? {s : Scope} {n : Name} {v : Value} {c : Change}
    (h : c.value? s n = some v) : c.written? = some v := by
  cases c with
  | defined t m x =>
      rw [value?] at h
      split at h
      · exact h
      · cases h
  | assigned t m v =>
      rw [value?] at h
      split at h
      · exact h
      · cases h
  | _ => cases h

end Change

/-- The value that an operation is given to write. -/
def Action.value? : Action → Option Value
  | .define _ _ v _ | .assign _ _ v => some v
  | _ => none

/-- The changes of a run, in their order. -/
abbrev History := List Change

namespace History

/-- The part of a history since the scope was emptied for the last time. -/
def since (h : History) (s : Scope) : History :=
  h.rtakeWhile fun c => !c.empties s

/-- The value that was written last to the name in the scope. -/
def value? (h : History) (s : Scope) (n : Name) : Option Value :=
  ((h.since s).filterMap (Change.value? s n)).getLast?

/-- The mutability that the last definition of the name in the scope gave. -/
def mutability? (h : History) (s : Scope) (n : Name) : Option Mutability :=
  ((h.since s).filterMap (Change.mutability? s n)).getLast?

/-- The names defined in the scope, each once, in the order of their first definition. -/
def names (h : History) (s : Scope) : List Name :=
  ((h.since s).filterMap (Change.name? s)).eraseDups

/-- What was written last was written by some change. -/
theorem exists_change {h : History} {s : Scope} {n : Name} {v : Value}
    (hv : h.value? s n = some v) : ∃ c ∈ h, c.written? = some v := by
  obtain ⟨c, hc, hvalue⟩ := List.mem_filterMap.mp (List.mem_of_getLast? hv)
  exact ⟨c, (List.rtakeWhile_suffix _ _).subset hc, Change.written?_of_value? hvalue⟩

theorem since_concat (h : History) (c : Change) (s : Scope) :
    since (h ++ [c]) s = if c.empties s then [] else h.since s ++ [c] := by
  rw [since, List.rtakeWhile_concat]
  cases c.empties s <;> rfl

theorem value?_concat (h : History) (c : Change) (s : Scope) (n : Name) :
    value? (h ++ [c]) s n = if c.empties s then none else (c.value? s n).or (h.value? s n) := by
  rw [value?, since_concat]
  split
  · rfl
  · cases hv : c.value? s n <;> simp [hv, value?]

theorem mutability?_concat (h : History) (c : Change) (s : Scope) (n : Name) :
    mutability? (h ++ [c]) s n =
      if c.empties s then none else (c.mutability? s n).or (h.mutability? s n) := by
  rw [mutability?, since_concat]
  split
  · rfl
  · cases hm : c.mutability? s n <;> simp [hm, mutability?]

theorem names_concat (h : History) (c : Change) (s : Scope) :
    names (h ++ [c]) s = c.names s (h.names s) := by
  rw [names, since_concat, Change.names]
  split
  · rfl
  · cases hn : c.name? s with
    | none => simp [hn, names]
    | some n =>
        simp only [List.filterMap_append, List.filterMap_cons, List.filterMap_nil, hn,
          List.eraseDups_append, names, List.mem_eraseDups]
        generalize (h.since s).filterMap (Change.name? s) = defined
        by_cases hmem : n ∈ defined <;> simp [hmem, List.removeAll, List.eraseDups_cons]

end History

namespace Store

/-- The change that creates a scope inside the scope `s`. -/
def creation (st : Store) (s : Scope) : Change :=
  match st.frame? s with
  | some g => .created (g.inside s)
  | none => .none

/-- The change that an assignment makes: to the nearest binding if that can be assigned, and without
one to the global scope if the policy allows it. -/
def assignment (st : Store) (s : Scope) (n : Name) (v : Value) : Change :=
  match st.binder? s n with
  | some b =>
      if ((st.bindings b).find? n).any fun x => x.mutability.isMutable then .assigned b n v
      else .none
  | none =>
      if (st.policy (st.root s)).allowsUndeclared then .defined (st.root s) n ⟨v, .mutable⟩
      else .none

end Store

namespace World

/-- The change at the scope of a place. -/
def changeAt (w : World) (place : Place) (change : Scope → Change) : Change :=
  match w.scopeAt? place with
  | some s => change s
  | none => .none

/-- The change that entering a child of the scope of a place makes. -/
def entry (w : World) (e : EnvironmentId) (parent : Place) : Change :=
  match w.environment? e, w.scopeAt? parent with
  | some env, some s =>
      match env.config.exceeded? (w.store.depth s) with
      | some _ => .none
      | none => w.store.creation s
  | _, _ => .none

/-- The change that the end of a run makes. -/
def ending (w : World) (e : EnvironmentId) : Change :=
  match w.environment? e with
  | some env => if env.finished then .none else .emptied env.global
  | none => .none

/-- The change that an operation makes. -/
def change (w : World) : Action → Change
  | .newScope => .created (.global .createGlobal)
  | .newGlobal policy => .created (.global policy)
  | .newChild parent => w.changeAt parent w.store.creation
  | .define place n v m => w.changeAt place fun s => .defined s n ⟨v, m⟩
  | .assign place n v => w.changeAt place fun s => w.store.assignment s n v
  | .newEnvironment config => .created (.global config.policy)
  | .enterBlock e | .guardBlock e => w.entry e (.current e)
  | .enterCall e captured | .guardCall e captured => w.entry e (.scope captured)
  | .finish e | .discard e => w.ending e
  | .get _ _ | .lookup _ _ | .contains _ _ | .binds _ _ | .mutability _ _ => .none
  | .leave _ | .restore _ | .capture _ | .closure _ _ _ _ => .none

/-- The changes that a run makes, in their order. -/
def history (w : World) : List Action → History
  | [] => []
  | a :: rest => w.change a :: (w.perform a).1.history rest

theorem written?_changeAt {w : World} {place : Place} {change : Scope → Change}
    {written : Option Value} {v : Value} (hchange : ∀ s, (change s).written? = some v → written = some v)
    (h : (w.changeAt place change).written? = some v) : written = some v := by
  rw [changeAt] at h
  split at h
  · exact hchange _ h
  · cases h

theorem written?_creation (st : Store) (s : Scope) : (st.creation s).written? = none := by
  rw [Store.creation]
  split <;> rfl

theorem written?_entry (w : World) (e : EnvironmentId) (parent : Place) :
    (w.entry e parent).written? = none := by
  rw [entry]
  split
  · split
    · rfl
    · exact written?_creation _ _
  · rfl

theorem written?_ending (w : World) (e : EnvironmentId) : (w.ending e).written? = none := by
  rw [ending]
  split
  · split <;> rfl
  · rfl

/-- The change of an operation writes no value but the one that the operation was given. -/
theorem value?_of_written? {w : World} {a : Action} {v : Value}
    (h : (w.change a).written? = some v) : a.value? = some v := by
  cases a with
  | newChild parent =>
      refine written?_changeAt (fun s hs => ?_) h
      rw [written?_creation] at hs
      cases hs
  | define place n u m =>
      refine written?_changeAt (fun s hs => ?_) h
      exact hs
  | assign place n u =>
      refine written?_changeAt (fun s hs => ?_) h
      rw [Store.assignment] at hs
      split at hs
      · split at hs
        · exact hs
        · cases hs
      · split at hs
        · exact hs
        · cases hs
  | enterBlock e | guardBlock e | enterCall e captured | guardCall e captured =>
      rw [change, written?_entry] at h
      cases h
  | finish e | discard e =>
      rw [change, written?_ending] at h
      cases h
  | _ => cases h

/-- A change in the history of a run was made by one of its operations. -/
theorem exists_action_of_written? {w : World} {run : List Action} {c : Change} {v : Value}
    (hc : c ∈ w.history run) (hv : c.written? = some v) : ∃ a ∈ run, a.value? = some v := by
  induction run generalizing w with
  | nil => cases hc
  | cons a rest ih =>
      rcases List.mem_cons.mp hc with rfl | hc
      · exact ⟨a, List.mem_cons_self, value?_of_written? hv⟩
      · obtain ⟨a', ha', hvalue⟩ := ih hc
        exact ⟨a', List.mem_cons_of_mem _ ha', hvalue⟩

theorem performAll_append (w : World) (first later : List Action) :
    (w.performAll (first ++ later)).1 = ((w.performAll first).1.performAll later).1 := by
  induction first generalizing w with
  | nil => rfl
  | cons a rest ih => exact ih (w.perform a).1

theorem history_append (w : World) (first later : List Action) :
    w.history (first ++ later) = w.history first ++ (w.performAll first).1.history later := by
  induction first generalizing w with
  | nil => rfl
  | cons a rest ih =>
      simp only [List.cons_append, history, ih, performAll]

/-! ### What an operation does to the store -/

theorem store_newScope {w : World} {s : Scope} (hs : w.store.isLive s = true) :
    (w.newScope (some s)).1.store = (w.store.creation s).apply w.store := by
  obtain ⟨g, hg⟩ := Store.isLive_iff.mp hs
  simp only [(newScope_some hg).1, Store.creation, hg, Change.apply]

theorem store_endRun (w : World) (e : EnvironmentId) :
    (w.endRun e).1.store = (w.ending e).apply w.store := by
  unfold endRun ending
  cases w.environment? e with
  | none => rfl
  | some env =>
      cases henv : env.finished with
      | true => simp [henv, Change.apply]
      | false =>
          simp only [henv]
          rfl

theorem endRun_of_finished {w : World} {e : EnvironmentId}
    (h : ∀ env, w.environment? e = some env → env.finished = true) : w.endRun e = (w, 0) := by
  unfold endRun
  cases he : w.environment? e with
  | none => rfl
  | some env => simp [h env he]

theorem finished_of_endRun {w : World} {e : EnvironmentId} {env : Environment}
    (h : (w.endRun e).1.environment? e = some env) : env.finished = true := by
  unfold endRun at h
  split at h
  · rename_i hnone
    rw [hnone] at h
    cases h
  · split at h
    · rename_i hsome hfinished
      rw [hsome] at h
      exact Option.some.inj h ▸ hfinished
    · change (w.updateEnvironment e Environment.close).environment? e = some env at h
      rw [environment?_updateEnvironment, if_pos rfl] at h
      obtain ⟨_, -, rfl⟩ := Option.map_eq_some_iff.mp h
      rfl

theorem store_performAt_of_reading (w : World) (place : Place)
    {operation : World → Scope → World × Result}
    (hoperation : ∀ s, (operation w s).1.store = w.store) :
    (w.performAt place operation).1.store = w.store := by
  unfold performAt
  split
  · rfl
  · exact hoperation _

namespace Sound

variable {w : World}

theorem store_assign (h : w.Sound) (s : Scope) (n : Name) (v : Value) :
    (w.assign s n v).1.store = (w.store.assignment s n v).apply w.store := by
  rw [(w.assign_fst s n v).1, h.store.assign_eq, Store.assignment]
  cases w.store.binder? s n with
  | some b => dsimp only; split <;> rfl
  | none => dsimp only; split <;> rfl

theorem store_performAt (h : w.Sound) {place : Place} {operation : World → Scope → World × Result}
    {change : Scope → Change} (hoperation : ∀ s, w.store.isLive s = true →
      (operation w s).1.store = (change s).apply w.store) :
    (w.performAt place operation).1.store = (w.changeAt place change).apply w.store := by
  unfold World.performAt changeAt
  cases hs : w.scopeAt? place with
  | none => rfl
  | some s => exact hoperation s (h.isLive_scopeAt? hs)

theorem store_performEntry (h : w.Sound) (e : EnvironmentId) (parent : Place)
    (answer : Environment → Result) :
    (w.performEntry e parent answer).1.store = (w.entry e parent).apply w.store := by
  unfold World.performEntry entry
  cases he : w.environment? e with
  | none => rfl
  | some env =>
      cases hs : w.scopeAt? parent with
      | none => rfl
      | some s =>
          have hstore := store_newScope (h.isLive_scopeAt? hs)
          have hentered : (w.enterChildOf e env s).1.store =
              (match env.config.exceeded? (w.store.depth s) with
                | some _ => Change.none
                | none => w.store.creation s).apply w.store := by
            unfold World.enterChildOf
            cases env.config.exceeded? (w.store.depth s) with
            | some limit => rfl
            | none => exact hstore
          dsimp only
          rw [← hentered]
          split <;> (rename_i heq; rw [heq])

theorem fits_creation (st : Store) (s : Scope) : (st.creation s).Fits st := by
  unfold Store.creation
  split
  · rfl
  · trivial

theorem fits_assignment (h : w.Sound) {s : Scope} (hs : w.store.isLive s = true) (n : Name)
    (v : Value) : (w.store.assignment s n v).Fits w.store := by
  unfold Store.assignment
  split
  · rename_i hb
    split
    · exact Store.binds_of_binder? hb
    · trivial
  · split
    · exact h.store.isLive_root hs
    · trivial

theorem fits_changeAt (h : w.Sound) (place : Place) {change : Scope → Change}
    (hchange : ∀ s, w.store.isLive s = true → (change s).Fits w.store) :
    (w.changeAt place change).Fits w.store := by
  unfold changeAt
  split
  · rename_i hs
    exact hchange _ (h.isLive_scopeAt? hs)
  · trivial

theorem fits_entry (e : EnvironmentId) (parent : Place) : (w.entry e parent).Fits w.store := by
  unfold entry
  split
  · split
    · trivial
    · exact fits_creation _ _
  · trivial

theorem fits_ending (e : EnvironmentId) : (w.ending e).Fits w.store := by
  unfold ending
  split
  · split <;> trivial
  · trivial

theorem fits_change (h : w.Sound) (a : Action) : (w.change a).Fits w.store := by
  cases a with
  | newScope => rfl
  | newGlobal policy => rfl
  | newChild parent => exact h.fits_changeAt parent fun s _ => fits_creation _ s
  | define place n v m => exact h.fits_changeAt place fun _ hs => hs
  | assign place n v => exact h.fits_changeAt place fun s hs => h.fits_assignment hs n v
  | newEnvironment config => rfl
  | enterBlock e => exact fits_entry e _
  | enterCall e captured => exact fits_entry e _
  | guardBlock e => exact fits_entry e _
  | guardCall e captured => exact fits_entry e _
  | finish e => exact fits_ending e
  | discard e => exact fits_ending e
  | _ => trivial

/-- An operation changes the store as its change tells. -/
theorem store_perform (h : w.Sound) (a : Action) :
    (w.perform a).1.store = (w.change a).apply w.store := by
  cases a with
  | newScope => rfl
  | newGlobal policy => rfl
  | newChild parent => exact h.store_performAt fun s hs => store_newScope hs
  | define place n v m => exact h.store_performAt fun s _ => rfl
  | assign place n v =>
      refine h.store_performAt fun s _ => ?_
      rw [← h.store_assign]
      split <;> (rename_i heq; rw [heq])
  | get place n =>
      refine w.store_performAt_of_reading place fun s => ?_
      cases hv : w.store.lookup s n with
      | none => rw [get_of_unbound hv]; rfl
      | some v => rw [get_of_lookup hv]
  | lookup place n => exact w.store_performAt_of_reading place fun _ => rfl
  | contains place n => exact w.store_performAt_of_reading place fun _ => rfl
  | binds place n => exact w.store_performAt_of_reading place fun _ => rfl
  | mutability place n => exact w.store_performAt_of_reading place fun _ => rfl
  | newEnvironment config => rfl
  | enterBlock e => exact h.store_performEntry e _ _
  | enterCall e captured => exact h.store_performEntry e _ _
  | leave e =>
      simp only [World.perform]
      split <;> rfl
  | guardBlock e => exact h.store_performEntry e _ _
  | guardCall e captured => exact h.store_performEntry e _ _
  | restore g => rfl
  | capture e => exact w.store_performAt_of_reading _ fun _ => rfl
  | closure e name params body =>
      simp only [World.perform]
      split <;> rfl
  | finish e =>
      simp only [World.perform]
      cases he : w.environment? e with
      | none => simp [change, ending, he, Change.apply]
      | some env =>
          change ((w.endRun e).1.endRun e).1.store = _
          rw [endRun_of_finished fun _ => finished_of_endRun]
          exact w.store_endRun e
  | discard e => exact w.store_endRun e

end Sound

end World

end ScopeChain
