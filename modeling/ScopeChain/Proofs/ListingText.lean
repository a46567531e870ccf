import ScopeChain.Proofs.ChainShape
import ScopeChain.Proofs.Delimited

/-!
The text of a listing.  A line shows the depth, the label and the names of one scope; names that are
not empty and have no commas and no line feeds are read back from it.  Only the last line of the
text has the label of the global scope, and the depths grow by one from line to line towards the
first.
-/

namespace ScopeChain

open Text

/-- Names that a listing shows apart. -/
structure Name.Listable (n : Name) : Prop where
  nonempty : n.text ≠ ""
  comma : ',' ∉ n.text.toList
  lineFeed : '\n' ∉ n.text.toList

theorem Name.eq_of_toList {n m : Name} (h : n.text.toList = m.text.toList) : n = m := by
  cases n
  cases m
  exact congrArg Name.mk (String.toList_inj.mp h)

namespace ListedScope

/-- The line of a scope under a label, without the line feed. -/
def shownAs (label : String) (l : ListedScope) : String :=
  "  " ++ toString l.depth ++ ": " ++ label ++ " [" ++ l.joinedNames ++ "]"

theorem line_eq (l : ListedScope) : l.line = l.shownAs l.label ++ "\n" := by
  simp [line, shownAs, String.append_assoc]

theorem toList_shownAs (label : String) (l : ListedScope) :
    (l.shownAs label).toList = ' ' :: ' ' :: ((toString l.depth).toList ++
      ':' :: ' ' :: (label.toList ++ ' ' :: '[' :: (l.joinedNames.toList ++ [']']))) := by
  simp [shownAs]

/-! ### The names in a line -/

/-- The pieces between the commas: every name but the first has a space before it. -/
def pieces : List Name → List (List Char)
  | [] => []
  | n :: rest => n.text.toList :: rest.map fun m => ' ' :: m.text.toList

theorem toList_joinedNames (l : ListedScope) :
    l.joinedNames.toList = [','].intercalate (pieces l.names) := by
  rw [joinedNames, String.toList_intercalate]
  cases l.names with
  | nil => rfl
  | cons n rest =>
      simp only [pieces, List.map_cons, intercalate_cons, List.map_map, List.flatMap_map]
      rfl

theorem pieces_inj {names names' : List Name} (h : pieces names = pieces names') :
    names = names' := by
  cases names with
  | nil =>
      cases names' with
      | nil => rfl
      | cons => cases h
  | cons n rest =>
      cases names' with
      | nil => cases h
      | cons n' rest' =>
          obtain ⟨hn, hrest⟩ := List.cons.inj h
          rw [Name.eq_of_toList hn, (List.map_inj_right fun m m' hm =>
            Name.eq_of_toList (List.tail_eq_of_cons_eq hm)).mp hrest]

theorem comma_not_mem_pieces {names : List Name} (h : ∀ n ∈ names, n.Listable) :
    ∀ p ∈ pieces names, ',' ∉ p := by
  cases names with
  | nil => exact List.forall_mem_nil _
  | cons n rest =>
      refine List.forall_mem_cons.mpr ⟨(h n List.mem_cons_self).comma, ?_⟩
      intro p hp
      obtain ⟨m, hm, rfl⟩ := List.mem_map.mp hp
      exact List.not_mem_cons_of_ne_of_not_mem (by decide) (h m (List.mem_cons_of_mem _ hm)).comma

theorem splitOn_joinedNames {l : ListedScope} (h : ∀ n ∈ l.names, n.Listable)
    (hne : l.names ≠ []) : l.joinedNames.toList.splitOn ',' = pieces l.names := by
  rw [toList_joinedNames]
  refine List.splitOn_intercalate ',' (comma_not_mem_pieces h) fun hpieces => hne ?_
  exact pieces_inj hpieces

theorem names_eq_nil_iff {l : ListedScope} (h : ∀ n ∈ l.names, n.Listable) :
    l.names = [] ↔ l.joinedNames.toList = [] := by
  rw [toList_joinedNames]
  cases hnames : l.names with
  | nil => exact iff_of_true rfl rfl
  | cons n rest =>
      refine iff_of_false (List.cons_ne_nil n rest) fun hjoined => ?_
      rw [pieces, intercalate_cons, List.append_eq_nil_iff] at hjoined
      refine (h n ?_).nonempty (String.toList_eq_nil_iff.mp hjoined.1)
      rw [hnames]
      exact List.mem_cons_self

theorem names_eq_of_joinedNames {l m : ListedScope} (hl : ∀ n ∈ l.names, n.Listable)
    (hm : ∀ n ∈ m.names, n.Listable) (h : l.joinedNames.toList = m.joinedNames.toList) :
    l.names = m.names := by
  by_cases hnil : l.names = []
  · rw [hnil, eq_comm, names_eq_nil_iff hm, ← h]
    exact (names_eq_nil_iff hl).mp hnil
  · have hnil' : m.names ≠ [] := by rwa [Ne, names_eq_nil_iff hm, ← h, ← names_eq_nil_iff hl]
    apply pieces_inj
    rw [← splitOn_joinedNames hl hnil, ← splitOn_joinedNames hm hnil', h]

/-! ### The lines of a text -/

theorem depth_eq_of_shownAs {label label' : String} {l m : ListedScope}
    (h : (l.shownAs label).toList = (m.shownAs label').toList) :
    l.depth = m.depth ∧ label.toList ++ ' ' :: '[' :: (l.joinedNames.toList ++ [']']) =
      label'.toList ++ ' ' :: '[' :: (m.joinedNames.toList ++ [']']) := by
  rw [toList_shownAs, toList_shownAs, List.cons.injEq, List.cons.injEq] at h
  obtain ⟨hdepth, htail⟩ := eq_of_toString_nat (by decide) h.2.2
  exact ⟨hdepth, List.tail_eq_of_cons_eq htail⟩

theorem local_ne_global (l m : ListedScope) : l.shownAs "local" ≠ m.shownAs "global" := by
  intro h
  obtain ⟨-, htail⟩ := depth_eq_of_shownAs (congrArg String.toList h)
  simp at htail

theorem heading_ne (label : String) (l : ListedScope) : "scope chain:" ≠ l.shownAs label := by
  intro h
  have hlist := congrArg String.toList h
  rw [toList_shownAs] at hlist
  exact absurd (List.head_eq_of_cons_eq hlist) (by decide)

theorem eq_of_shownAs_label {l m : ListedScope} (hl : ∀ n ∈ l.names, n.Listable)
    (hm : ∀ n ∈ m.names, n.Listable)
    (h : (l.shownAs l.label).toList = (m.shownAs m.label).toList) : l = m := by
  obtain ⟨hdepth, htail⟩ := depth_eq_of_shownAs h
  have hlabel : l.label = m.label := by rw [label, label, hdepth]
  rw [hlabel] at htail
  have hjoined := List.append_cancel_left htail
  simp only [List.cons.injEq, true_and, List.append_cancel_right_eq] at hjoined
  have hnames := names_eq_of_joinedNames hl hm hjoined
  cases l
  cases m
  exact congrArg₂ ListedScope.mk hdepth hnames

theorem lineFeed_not_mem_joinedNames {l : ListedScope} (h : ∀ n ∈ l.names, n.Listable) :
    '\n' ∉ l.joinedNames.toList := by
  rw [toList_joinedNames]
  cases hnames : l.names with
  | nil => exact List.not_mem_nil
  | cons n rest =>
      rw [hnames] at h
      rw [pieces, intercalate_cons, List.mem_append, List.mem_flatMap]
      rintro (hn | ⟨p, hp, hmem⟩)
      · exact (h n List.mem_cons_self).lineFeed hn
      · obtain ⟨m, hm, rfl⟩ := List.mem_map.mp hp
        refine (h m (List.mem_cons_of_mem _ hm)).lineFeed ?_
        simpa using hmem

theorem lineFeed_not_mem_shownAs {l : ListedScope} (h : ∀ n ∈ l.names, n.Listable) :
    '\n' ∉ (l.shownAs l.label).toList := by
  have hdepth := not_mem_toString_nat (c := '\n') (by decide) l.depth
  have hlabel : '\n' ∉ l.label.toList := by
    unfold label
    split <;> decide
  have hjoined := lineFeed_not_mem_joinedNames h
  rw [toList_shownAs]
  simpa [hlabel, hjoined] using hdepth

end ListedScope

namespace Listing

theorem intercalate_concat_nil (c : Char) (xs : List (List Char)) :
    [c].intercalate (xs ++ [[]]) = xs.flatMap (· ++ [c]) := by
  induction xs with
  | nil => rfl
  | cons x xs ih =>
      obtain ⟨y, ys, hys⟩ := List.exists_cons_of_ne_nil (List.concat_ne_nil [] xs)
      rw [List.cons_append, hys, List.intercalate_cons_cons, ← hys, ih, List.flatMap_cons]

/-- The text at its line feeds: the heading, a line for each scope, and nothing behind the last. -/
theorem splitOn_text {l : Listing} (h : ∀ x ∈ l.scopes, ∀ n ∈ x.names, n.Listable) :
    l.text.toList.splitOn '\n' = "scope chain:".toList ::
      l.scopes.map (fun x => (x.shownAs x.label).toList) ++ [[]] := by
  have htext : l.text.toList = ['\n'].intercalate
      ("scope chain:".toList :: l.scopes.map (fun x => (x.shownAs x.label).toList) ++ [[]]) := by
    rw [intercalate_concat_nil, text, String.toList_append, String.toList_join, List.flatMap_cons,
      List.flatMap_map, List.flatMap_map]
    simp [ListedScope.line_eq]
  rw [htext]
  refine List.splitOn_intercalate '\n' ?_ (by simp)
  simp only [List.cons_append, List.forall_mem_cons, List.forall_mem_append, List.forall_mem_map]
  refine ⟨by decide, fun x hx => ?_, by simp⟩
  exact ListedScope.lineFeed_not_mem_shownAs (h x hx)

theorem splitOn_text_of_last {l : Listing} (h : ∀ x ∈ l.scopes, ∀ n ∈ x.names, n.Listable)
    {inner : List ListedScope} {names : List Name} (hscopes : l.scopes = inner ++ [⟨0, names⟩])
    (hlocal : ∀ x ∈ inner, x.depth ≠ 0) :
    l.text.toList.splitOn '\n' = ("scope chain:" :: inner.map (ListedScope.shownAs "local") ++
      [ListedScope.shownAs "global" ⟨0, names⟩, ""]).map String.toList := by
  have hinner : inner.map (fun x => (x.shownAs x.label).toList) =
      inner.map fun x => (x.shownAs "local").toList := by
    refine List.map_congr_left fun x hx => ?_
    rw [ListedScope.label, if_neg (hlocal x hx)]
  rw [splitOn_text h, hscopes, List.map_append, hinner]
  simp [ListedScope.label]

theorem scopes_eq_of_lines {xs ys : List ListedScope} (hx : ∀ x ∈ xs, ∀ n ∈ x.names, n.Listable)
    (hy : ∀ y ∈ ys, ∀ n ∈ y.names, n.Listable)
    (h : xs.map (fun x => (x.shownAs x.label).toList) =
      ys.map fun y => (y.shownAs y.label).toList) : xs = ys := by
  induction xs generalizing ys with
  | nil => exact (List.map_eq_nil_iff.mp h.symm).symm
  | cons x xs ih =>
      cases ys with
      | nil => cases h
      | cons y ys =>
          obtain ⟨hfirst, hrest⟩ := List.cons.inj h
          rw [List.forall_mem_cons] at hx hy
          rw [ListedScope.eq_of_shownAs_label hx.1 hy.1 hfirst, ih hx.2 hy.2 hrest]

theorem eq_of_text {l m : Listing} (hl : ∀ x ∈ l.scopes, ∀ n ∈ x.names, n.Listable)
    (hm : ∀ x ∈ m.scopes, ∀ n ∈ x.names, n.Listable) (h : l.text = m.text) : l = m := by
  have hlines := congrArg (fun t => t.toList.splitOn '\n') h
  simp only [splitOn_text hl, splitOn_text hm, List.cons_append, List.cons.injEq, true_and,
    List.append_cancel_right_eq] at hlines
  cases l
  cases m
  exact congrArg Listing.mk (scopes_eq_of_lines hl hm hlines)

end Listing

namespace Store

/-- Depths that are counted in full. -/
theorem map_min_greatestDepth {n : Nat} (h : n < UInt64.size) :
    (List.range' 1 n).reverse.map (min greatestDepth) = (List.range' 1 n).reverse := by
  refine (List.map_congr_left fun k hk => ?_).trans (List.map_id _)
  rw [List.mem_reverse, List.mem_range'_1] at hk
  exact Nat.min_eq_right (by rw [greatestDepth]; omega)

namespace Sound

variable {st : Store}

/-- Towards the first scope the depths grow by one, as far as depths are counted. -/
theorem map_depth_chain_eq (h : st.Sound) (s : Scope) :
    (st.chain s).map st.depth =
      (List.range (st.chain s).length).reverse.map (min greatestDepth) := by
  induction s using h.chain_induction with
  | global s hp =>
      rw [h.chain_eq, hp]
      simp [h.depth_of_global hp]
  | inside s p hp ih =>
      have hdepth := h.depth_add_one s
      rw [h.chain_eq, hp, List.length_cons] at hdepth ⊢
      rw [List.map_cons, ih, List.range_succ, List.reverse_append, List.reverse_singleton,
        List.singleton_append, List.map_cons]
      congr 1
      omega

/-- The chain before its last scope, which is the only one of depth zero. -/
theorem exists_chain_eq (h : st.Sound) (s : Scope) :
    ∃ inner, st.chain s = inner ++ [st.root s] ∧ (∀ t ∈ inner, st.depth t ≠ 0) ∧
      st.depth (st.root s) = 0 ∧
      inner.map st.depth = (List.range' 1 inner.length).reverse.map (min greatestDepth) := by
  obtain ⟨inner, hinner⟩ := List.getLast?_eq_some_iff.mp (h.getLast?_chain s)
  have hdepths := h.map_depth_chain_eq s
  rw [hinner, List.length_append, List.length_singleton, List.range_eq_range', List.range'_succ,
    List.reverse_cons, List.map_append, List.map_append, List.map_singleton,
    List.map_singleton] at hdepths
  obtain ⟨hdepths, hroot⟩ := List.append_inj' hdepths rfl
  refine ⟨inner, hinner, fun t ht hzero => ?_, by simpa using hroot, hdepths⟩
  have hmem : st.depth t ∈ inner.map st.depth := List.mem_map_of_mem ht
  rw [hdepths, hzero] at hmem
  obtain ⟨k, hk, hmin⟩ := List.mem_map.mp hmem
  rw [List.mem_reverse, List.mem_range'_1] at hk
  have hpos : 0 < greatestDepth := by decide
  omega

end Sound

end Store

namespace World

/-- Chains whose scopes bind only names that a listing shows apart have the same text only when they
have the same depths and names in the same order.  The text has a heading and a line for each scope,
and only the last line has the label of the global scope; the depths before it grow by one from line
to line towards the first, as far as depths are counted. -/
theorem listing_text_unambiguous (actions actions' : List Action) (s s' : Scope) :
    let st := (World.empty.performAll actions).1.store
    let st' := (World.empty.performAll actions').1.store
    (∀ t ∈ st.chain s, ∀ n ∈ st.names t, n.Listable) →
    ((∀ t ∈ st'.chain s', ∀ n ∈ st'.names t, n.Listable) →
      (Listing.ofChain st s).text = (Listing.ofChain st' s').text →
        Listing.ofChain st s = Listing.ofChain st' s' ∧
        (st.chain s).map st.depth = (st'.chain s').map st'.depth ∧
        (st.chain s).map st.names = (st'.chain s').map st'.names) ∧
    ∃ inner names, (Listing.ofChain st s).scopes = inner ++ [⟨0, names⟩] ∧
      (Listing.ofChain st s).text.toList.splitOn '\n' =
        ("scope chain:" :: inner.map (ListedScope.shownAs "local") ++
          [ListedScope.shownAs "global" ⟨0, names⟩, ""]).map String.toList ∧
      (∀ line ∈ "scope chain:" :: inner.map (ListedScope.shownAs "local"),
        ∀ l : ListedScope, line ≠ l.shownAs "global") ∧
      inner.map ListedScope.depth = (List.range' 1 inner.length).reverse.map (min greatestDepth) ∧
      (inner.length < UInt64.size →
        inner.map ListedScope.depth = (List.range' 1 inner.length).reverse) := by
  intro st st' hnames
  have hst : st.Sound := (sound_of_run actions).store
  have hscopes : ∀ x ∈ (Listing.ofChain st s).scopes, ∀ n ∈ x.names, n.Listable :=
    List.forall_mem_map.mpr hnames
  refine ⟨fun hnames' htext => ?_, ?_⟩
  · have hscopes' : ∀ x ∈ (Listing.ofChain st' s').scopes, ∀ n ∈ x.names, n.Listable :=
      List.forall_mem_map.mpr hnames'
    have heq := Listing.eq_of_text hscopes hscopes' htext
    have hlists := congrArg Listing.scopes heq
    have hdepths := congrArg (List.map ListedScope.depth) hlists
    have hnames := congrArg (List.map ListedScope.names) hlists
    simp only [Listing.ofChain, List.map_map] at hdepths hnames
    exact ⟨heq, hdepths, hnames⟩
  · obtain ⟨inner, hinner, hlocal, hglobal, hdepths⟩ := hst.exists_chain_eq s
    have hlisted : (Listing.ofChain st s).scopes =
        inner.map (fun t => ⟨st.depth t, st.names t⟩) ++ [⟨0, st.names (st.root s)⟩] := by
      simp [Listing.ofChain, hinner, hglobal]
    have hdepth : (inner.map fun t => (⟨st.depth t, st.names t⟩ : ListedScope)).map
        ListedScope.depth = inner.map st.depth := by
      rw [List.map_map]
      rfl
    have hlines := Listing.splitOn_text_of_last hscopes hlisted (List.forall_mem_map.mpr hlocal)
    refine ⟨_, _, hlisted, hlines, ?_, ?_, fun hlength => ?_⟩
    · rw [List.forall_mem_cons, List.forall_mem_map]
      exact ⟨ListedScope.heading_ne "global", fun x _ => ListedScope.local_ne_global x⟩
    · rw [hdepth, List.length_map, hdepths]
    · rw [List.length_map] at hlength ⊢
      rw [hdepth, hdepths, Store.map_min_greatestDepth hlength]

/-- Two chains of a block with a name that looks like the end of a line, under different policies
and with different values. -/
theorem text_of_block_with_brackets :
    let actions := [.newEnvironment {}, .define (.global ⟨0⟩) ⟨"a]"⟩ .void .mutable,
      .enterBlock ⟨0⟩]
    let actions' := [.newEnvironment ⟨.strict, none⟩,
      .define (.global ⟨0⟩) ⟨"a]"⟩ (.bool true) .immutable, .enterBlock ⟨0⟩]
    let st := (World.empty.performAll actions).1.store
    let st' := (World.empty.performAll actions').1.store
    (∀ t ∈ st.chain ⟨1⟩, ∀ n ∈ st.names t, n.Listable) ∧
      (∀ t ∈ st'.chain ⟨1⟩, ∀ n ∈ st'.names t, n.Listable) ∧
      (Listing.ofChain st ⟨1⟩).text = (Listing.ofChain st' ⟨1⟩).text ∧
      Listing.ofChain st ⟨1⟩ = Listing.ofChain st' ⟨1⟩ := by
  intro actions actions' st st'
  have hlistable : ∀ st : Store, st.chain ⟨1⟩ = [⟨1⟩, ⟨0⟩] → st.names ⟨1⟩ = [] →
      st.names ⟨0⟩ = [⟨"a]"⟩] → ∀ t ∈ st.chain ⟨1⟩, ∀ n ∈ st.names t, n.Listable := by
    intro st hchain hblock hglobal
    have hname : Name.Listable ⟨"a]"⟩ := ⟨by decide, by decide, by decide⟩
    simp [hchain, hblock, hglobal, hname]
  have hnames := hlistable st (by decide) (by decide) (by decide)
  have hnames' := hlistable st' (by decide) (by decide) (by decide)
  have htext : (Listing.ofChain st ⟨1⟩).text = (Listing.ofChain st' ⟨1⟩).text := by
    decide +kernel
  exact ⟨hnames, hnames', htext,
    ((listing_text_unambiguous actions actions' ⟨1⟩ ⟨1⟩ hnames).1 hnames' htext).1⟩

end World

end ScopeChain
