import SharedValues.Proofs.Path.Trail
import SharedValues.Proofs.Store.Closed
import SharedValues.Value.Order
import SharedValues.Value.Render

/-!
# The walks of writing, equality and order

Writing, the two equalities and the order, each as a walk over a single path that is changed in
place. Nothing in these definitions says that they end: a walk that has to go more calls deep than
it is allowed gives up.

They end on every closed store. Lists are entered that are not on the path yet, so each call inside
another leaves fewer of them beside the path, and a walk that may go deeper than there are lists, or
pairs of lists, returns. It returns what `repr`, `equals`, `strictEq` and `compareValues` answer,
which pass the path on and never have to clean it up.
-/

namespace SharedValues.Value

open Digits Walk

/-- Writes a value. -/
def writeWalk (h : Store) : Nat → Value → Walk ListRef (List Char)
  | 0, _ => tooDeep
  | depth + 1, v => call <|
    match v with
    | .none => return ['N', 'o', 'n', 'e']
    | .bool true => return ['T', 'r', 'u', 'e']
    | .bool false => return ['F', 'a', 'l', 's', 'e']
    | .int n => return decimal n
    | .bytes object => return Literal.ofBytes object.data
    | .text object => return Literal.ofText object.data
    | .list r => do
      if r ∈ (← get).active then
        return cut
      else
        inside r do
          let items ← (h.elements r).mapM (writeWalk h depth)
          return bracketed items

/-- Compares two values for equality. -/
def agreeWalk (leaf : Value → Value → Bool) (h : Store) :
    Nat → Value → Value → Walk (ListRef × ListRef) Bool
  | 0, _, _ => tooDeep
  | depth + 1, v, w => call <|
    match v, w with
    | .list a, .list b => do
      if a = b ∨ (a, b) ∈ (← get).active then
        return true
      else if (h.elements a).length ≠ (h.elements b).length then
        return false
      else
        inside (a, b) <|
          ((h.elements a).zip (h.elements b)).allM fun p => agreeWalk leaf h depth p.1 p.2
    | v, w => return leaf v w

/-- Compares two values for their order. The search for the first difference and the comparison of
that difference go on with the same path. -/
def compareWalk (h : Store) :
    Nat → Value → Value → Walk (ListRef × ListRef) (Except Fault Ordering)
  | 0, _, _ => tooDeep
  | depth + 1, v, w => call <|
    match v, w with
    | .list a, .list b => do
      if a = b ∨ (a, b) ∈ (← get).active then
        return .ok .eq
      else
        inside (a, b) <|
          firstFailing (fun p => agreeWalk looseLeaf h depth p.1 p.2)
            (fun p => compareWalk h depth p.1 p.2) (.ok (compare (h.length a) (h.length b)))
            ((h.elements a).zip (h.elements b))
    | v, w => return compareLeaf v w

/-! ### What the walks return -/

section Ends

variable {h : Store}

theorem writeWalk_settles (hh : h.Closed) {depth : Nat} {path : List ListRef} {v : Value}
    (hv : h.Covers v) (hpath : Fits h.refs path) (hdepth : remaining h.refs path < depth) :
    Settles h.refs path (writeWalk h depth v) (writeWithin h path v) := by
  induction depth generalizing path v with
  | zero => exact absurd hdepth (Nat.not_lt_zero _)
  | succ depth ih =>
    refine Settles.call ?_
    cases v with
    | none => simpa only [writeWithin] using Settles.pure _
    | bool b => cases b <;> simpa only [writeWithin] using Settles.pure _
    | int n => simpa only [writeWithin] using Settles.pure _
    | bytes object => simpa only [writeWithin] using Settles.pure _
    | text object => simpa only [writeWithin] using Settles.pure _
    | list r =>
      refine Settles.get_bind fun t ht => ?_
      rw [ht]
      by_cases hr : r ∈ path
      · rw [if_pos hr, writeWithin_list_of_mem hr]
        exact Settles.pure cut
      · have hmem : r ∈ h.refs := Store.mem_refs_iff.2 hv
        have hgrown : Fits h.refs (r :: path) := hpath.cons hmem hr
        have hless := remaining_cons_lt hmem hr
        rw [if_neg hr, writeWithin_list_of_not_mem hr]
        refine Settles.inside hpath hgrown (Settles.bind (Settles.mapM ?_) (Settles.pure _))
        intro v hv
        exact ih (hh r v hv) hgrown (by omega)

/-- Going into two lists that are not compared yet puts a new pair on the path, and leaves fewer
pairs beside it. -/
theorem fits_cons_pair {path : List (ListRef × ListRef)} {a b : ListRef} (ha : h.Holds a)
    (hb : h.Holds b) (hpath : Fits h.pairs path) (hp : ¬ (a = b ∨ (a, b) ∈ path)) :
    Fits h.pairs ((a, b) :: path) ∧
      remaining h.pairs ((a, b) :: path) < remaining h.pairs path := by
  have hnew : (a, b) ∉ path := fun hm => hp (Or.inr hm)
  have hmem : (a, b) ∈ h.pairs := Store.mem_pairs_iff.2 ⟨ha, hb⟩
  exact ⟨hpath.cons hmem hnew, remaining_cons_lt hmem hnew⟩

theorem agreeWalk_settles (leaf : Value → Value → Bool) (hh : h.Closed) {depth : Nat}
    {path : List (ListRef × ListRef)} {v w : Value} (hv : h.Covers v) (hw : h.Covers w)
    (hpath : Fits h.pairs path) (hdepth : remaining h.pairs path < depth) :
    Settles h.pairs path (agreeWalk leaf h depth v w) (agreeWithin leaf h path v w) := by
  induction depth generalizing path v w with
  | zero => exact absurd hdepth (Nat.not_lt_zero _)
  | succ depth ih =>
    refine Settles.call ?_
    split
    · rename_i a b
      refine Settles.get_bind fun t ht => ?_
      rw [ht]
      by_cases hp : a = b ∨ (a, b) ∈ path
      · rw [if_pos hp, agreeWithin_list_of_mem hp]
        exact Settles.pure true
      · rw [if_neg hp, agreeWithin_list_of_not_mem hp]
        by_cases hlen : (h.elements a).length = (h.elements b).length
        · obtain ⟨hgrown, hless⟩ := fits_cons_pair hv hw hpath hp
          rw [if_neg (not_not_intro hlen), beq_iff_eq.2 hlen, Bool.true_and]
          refine Settles.inside hpath hgrown (Settles.allM ?_)
          intro p hm
          obtain ⟨hv, hw⟩ := hh.covers_of_mem_zip hm
          exact ih hv hw hgrown (by omega)
        · rw [if_pos hlen, beq_false_of_ne hlen, Bool.false_and]
          exact Settles.pure false
    · rename_i hlists
      rw [agreeWithin]
      · exact Settles.pure _
      · exact hlists

theorem compareWalk_settles (hh : h.Closed) {depth : Nat} {path : List (ListRef × ListRef)}
    {v w : Value} (hv : h.Covers v) (hw : h.Covers w) (hpath : Fits h.pairs path)
    (hdepth : remaining h.pairs path < depth) :
    Settles h.pairs path (compareWalk h depth v w) (compareWithin h path v w) := by
  induction depth generalizing path v w with
  | zero => exact absurd hdepth (Nat.not_lt_zero _)
  | succ depth ih =>
    refine Settles.call ?_
    split
    · rename_i a b
      refine Settles.get_bind fun t ht => ?_
      rw [ht]
      by_cases hp : a = b ∨ (a, b) ∈ path
      · rw [if_pos hp, compareWithin_list_of_mem hp]
        exact Settles.pure _
      · obtain ⟨hgrown, hless⟩ := fits_cons_pair hv hw hpath hp
        rw [if_neg hp, compareWithin_list_of_not_mem hp]
        refine Settles.inside hpath hgrown ?_
        -- Both the search and the comparison of what it finds run on the longer path.
        have htest : ∀ p ∈ (h.elements a).zip (h.elements b),
            Settles h.pairs ((a, b) :: path) (agreeWalk looseLeaf h depth p.1 p.2)
              (agreeWithin looseLeaf h ((a, b) :: path) p.1 p.2) := by
          intro p hm
          obtain ⟨hv, hw⟩ := hh.covers_of_mem_zip hm
          exact agreeWalk_settles looseLeaf hh hv hw hgrown (by omega)
        have hfound : ∀ p ∈ (h.elements a).zip (h.elements b),
            Settles h.pairs ((a, b) :: path) (compareWalk h depth p.1 p.2)
              (compareWithin h ((a, b) :: path) p.1 p.2) := by
          intro p hm
          obtain ⟨hv, hw⟩ := hh.covers_of_mem_zip hm
          exact ih hv hw hgrown (by omega)
        have hloop := Settles.firstFailing (.ok (compare (h.length a) (h.length b))) htest hfound
        rw [← firstDifference?] at hloop
        cases hfirst : firstDifference? h ((a, b) :: path) ((h.elements a).zip (h.elements b)) with
        | none => simpa only [hfirst] using hloop
        | some p => simpa only [hfirst] using hloop
    · rename_i hlists
      rw [compareWithin]
      · exact Settles.pure _
      · exact hlists

/-- On a closed store every walk returns what the plain definition answers once it may go deeper
than there are lists, or pairs of lists. Its path never holds an entry twice, so never more entries
than that, and every call leaves the path as it found it. -/
theorem walks_return (hh : h.Closed) {v w : Value} (hv : h.Covers v) (hw : h.Covers w) :
    (∀ depth, h.size < depth → Returns h.size (writeWalk h depth v) (repr h v).toList) ∧
    (∀ depth, h.size * h.size < depth →
      Returns (h.size * h.size) (agreeWalk looseLeaf h depth v w) (equals h v w) ∧
      Returns (h.size * h.size) (agreeWalk strictLeaf h depth v w) (strictEq h v w) ∧
      Returns (h.size * h.size) (compareWalk h depth v w) (compareValues h v w)) := by
  constructor
  · intro depth hdepth
    have hfew : remaining h.refs [] < depth := by
      rw [remaining_nil, Store.length_refs]
      exact hdepth
    have hwalk := writeWalk_settles hh hv (fits_nil h.refs) hfew
    rw [← Store.length_refs h, repr, String.toList_ofList]
    exact hwalk.returns
  · intro depth hdepth
    have hfew : remaining h.pairs [] < depth := by
      rw [remaining_nil, Store.length_pairs]
      exact hdepth
    have hnil := fits_nil h.pairs
    rw [← Store.length_pairs h]
    exact ⟨(agreeWalk_settles looseLeaf hh hv hw hnil hfew).returns,
      (agreeWalk_settles strictLeaf hh hv hw hnil hfew).returns,
      (compareWalk_settles hh hv hw hnil hfew).returns⟩

/-- Two lists that hold each other, and beside that an integer and a truth value. -/
def knot : Store :=
  ((Store.empty.newList []).2.newList [.list ⟨0⟩, .bool true]).2.write ⟨0⟩ [.list ⟨1⟩, .int 1]

theorem knot_closed : knot.Closed := by
  have hfirst : (Store.empty.newList []).2.Closed := Store.closed_empty.newList (by decide)
  have hsecond : ((Store.empty.newList []).2.newList [.list ⟨0⟩, .bool true]).2.Closed :=
    hfirst.newList (by decide)
  exact hsecond.write ⟨0⟩ (by decide)

theorem walks_return_knot :
    knot.Closed ∧ knot.Covers (.list ⟨0⟩) ∧ knot.Covers (.list ⟨1⟩) ∧
      Returns 2 (writeWalk knot 3 (.list ⟨0⟩)) "[[[...], True], 1]".toList ∧
      Returns 4 (agreeWalk looseLeaf knot 5 (.list ⟨0⟩) (.list ⟨1⟩)) true ∧
      Returns 4 (agreeWalk strictLeaf knot 5 (.list ⟨0⟩) (.list ⟨1⟩)) false ∧
      Returns 4 (compareWalk knot 5 (.list ⟨0⟩) (.list ⟨1⟩)) (.ok .eq) := by
  have hzero : knot.Covers (.list ⟨0⟩) := by decide
  have hone : knot.Covers (.list ⟨1⟩) := by decide
  have hrepr : repr knot (.list ⟨0⟩) = "[[[...], True], 1]" := by decide +kernel
  have hequals : equals knot (.list ⟨0⟩) (.list ⟨1⟩) = true := by decide +kernel
  have hstrict : strictEq knot (.list ⟨0⟩) (.list ⟨1⟩) = false := by decide +kernel
  have hcompare : compareValues knot (.list ⟨0⟩) (.list ⟨1⟩) = .ok .eq := by decide +kernel
  obtain ⟨hrefs, hpairs⟩ := walks_return knot_closed hzero hone
  rw [hrepr] at hrefs
  rw [hequals, hstrict, hcompare] at hpairs
  exact ⟨knot_closed, hzero, hone, hrefs 3 (by decide), hpairs 5 (by decide)⟩

end Ends

end SharedValues.Value
