import Mathlib.Data.List.Find
import SharedValues.Proofs.Agreement.Leading
import SharedValues.Proofs.Order.WeakOrder

/-!
# The order of lists by their elements

Two lists are ordered by the first elements that are not equal, and without such elements by their
length. While the walk compares the elements of two lists it takes these lists to be equal, so the
law with equality and order on their own needs one of two reasons why this does not show.

Either the pair of lists is not met again from the two elements (`LeadsTo`). Or going down, from two
lists to their first unequal elements and so on, comes to an end (`EndsIn`): then every pair on the
way down is decided by the next one, and a pair at which the walk turns back would have to come to
its end after two different numbers of steps. Going down always ends if one of the two values is
acyclic. Where neither holds the law asks for the order of a pair through the order of the same
pair, and the walk answers with the first other difference that it finds (`crossed`).
-/

namespace SharedValues.Value

variable {h : Store}

/-! ### First unequal elements -/

/-- The index is the first below both lengths at which two lists have unequal elements, and these
elements are `x` and `y`. -/
structure FirstUnequalAt (h : Store) (a b : ListRef) (i : Nat) (x y : Value) : Prop where
  left : (h.elements a)[i]? = some x
  right : (h.elements b)[i]? = some y
  unequal : equals h x y = false
  earlier : ∀ j < i, ∀ u w, (h.elements a)[j]? = some u → (h.elements b)[j]? = some w →
    equals h u w = true

theorem agreeWithin_of_equals {v w : Value} (hvw : equals h v w = true)
    (path : List (ListRef × ListRef)) : agreeWithin looseLeaf h path v w = true :=
  agreeWithin_of_forall_alikeTo path v w ((agreeWithin_nil_iff looseLeaf_refl).1 hvw)

section First

variable {a b : ListRef} {i : Nat} {x y : Value}

theorem FirstUnequalAt.mem_zip (hfirst : FirstUnequalAt h a b i x y) :
    (x, y) ∈ (h.elements a).zip (h.elements b) :=
  List.mem_of_getElem? (List.getElem?_zip_eq_some.2 ⟨hfirst.left, hfirst.right⟩)

/-- A list has no element that is not equal to itself. -/
theorem FirstUnequalAt.ne (hfirst : FirstUnequalAt h a b i x y) : a ≠ b := by
  rintro rfl
  have hsame : x = y := Option.some.inj (hfirst.left.symm.trans hfirst.right)
  have hxy := hfirst.unequal
  rw [hsame, equals_self] at hxy
  cases hxy

/-- Elements that are equal on their own are no difference on any path. So the first unequal
elements are the first difference on every path that does not take them to be equal. -/
theorem FirstUnequalAt.firstDifference? (hfirst : FirstUnequalAt h a b i x y)
    {path : List (ListRef × ListRef)} (hxy : agreeWithin looseLeaf h path x y = false) :
    firstDifference? h path ((h.elements a).zip (h.elements b)) = some (x, y) := by
  have hpair : ((h.elements a).zip (h.elements b))[i]? = some (x, y) :=
    List.getElem?_zip_eq_some.2 ⟨hfirst.left, hfirst.right⟩
  obtain ⟨hi, hget⟩ := List.getElem?_eq_some_iff.1 hpair
  refine List.find?_eq_some_iff_getElem.2 ⟨by simp [hxy], i, hi, hget, ?_⟩
  intro j hj
  have hjpair := List.getElem?_eq_getElem (Nat.lt_trans hj hi)
  obtain ⟨hu, hw⟩ := List.getElem?_zip_eq_some.1 hjpair
  rw [agreeWithin_of_equals (hfirst.earlier j hj _ _ hu hw) path]
  rfl

theorem exists_firstUnequalAt_iff :
    (∃ i, FirstUnequalAt h a b i x y) ↔
      firstDifference? h [] ((h.elements a).zip (h.elements b)) = some (x, y) := by
  constructor
  · rintro ⟨i, hfirst⟩
    exact hfirst.firstDifference? hfirst.unequal
  · intro hfirst
    obtain ⟨hxy, i, hi, hget, hearlier⟩ := List.find?_eq_some_iff_getElem.1 hfirst
    have hpair := List.getElem?_eq_some_iff.2 ⟨hi, hget⟩
    obtain ⟨hx, hy⟩ := List.getElem?_zip_eq_some.1 hpair
    refine ⟨i, hx, hy, by simpa [equals] using hxy, ?_⟩
    intro j hj u w hu hw
    have hjpair : ((h.elements a).zip (h.elements b))[j]? = some (u, w) :=
      List.getElem?_zip_eq_some.2 ⟨hu, hw⟩
    obtain ⟨hlt, hjget⟩ := List.getElem?_eq_some_iff.1 hjpair
    have hagree := hearlier j hj
    rw [hjget] at hagree
    simpa [equals] using hagree

theorem not_exists_firstUnequalAt_iff :
    (¬ ∃ i x y, FirstUnequalAt h a b i x y) ↔
      ∀ p ∈ (h.elements a).zip (h.elements b), equals h p.1 p.2 = true := by
  constructor
  · intro hno
    refine firstDifference?_eq_none_iff.1 (Option.eq_none_iff_forall_ne_some.2 ?_)
    intro p hp
    obtain ⟨i, hfirst⟩ := exists_firstUnequalAt_iff.2 hp
    exact hno ⟨i, p.1, p.2, hfirst⟩
  · rintro hall ⟨i, x, y, hfirst⟩
    have hxy := hall (x, y) hfirst.mem_zip
    rw [hfirst.unequal] at hxy
    cases hxy

/-- Lists without unequal elements are compared by their lengths, on every path that does not take
them to be equal. -/
theorem compareWithin_of_not_exists_firstUnequalAt
    (hno : ¬ ∃ i x y, FirstUnequalAt h a b i x y) {path : List (ListRef × ListRef)}
    (hp : (a, b) ∉ path) :
    compareWithin h path (.list a) (.list b) = .ok (compare (h.length a) (h.length b)) := by
  by_cases hab : a = b
  · rw [compareWithin_list_of_mem (Or.inl hab), hab, Std.compare_self]
  · have hnone : firstDifference? h ((a, b) :: path)
        ((h.elements a).zip (h.elements b)) = Option.none :=
      firstDifference?_eq_none_iff.2 fun p hm =>
        agreeWithin_of_equals (not_exists_firstUnequalAt_iff.1 hno p hm) _
    rw [compareWithin_list_of_not_mem (not_or_intro hab hp), hnone]

/-- Lists with unequal elements are compared by the first of them, unless the walk takes these to be
equal. -/
theorem FirstUnequalAt.compareWithin (hfirst : FirstUnequalAt h a b i x y)
    {path : List (ListRef × ListRef)} (hp : (a, b) ∉ path)
    (hxy : agreeWithin looseLeaf h ((a, b) :: path) x y = false) :
    compareWithin h path (.list a) (.list b) = compareWithin h ((a, b) :: path) x y := by
  rw [compareWithin_list_of_not_mem (not_or_intro hfirst.ne hp), hfirst.firstDifference? hxy]

end First

/-! ### Pairs that are not met again -/

section Onward

variable {path other : List (ListRef × ListRef)}

theorem firstDifference?_eq_of_sameOnward {ps : List (Value × Value)}
    (hsame : ∀ p ∈ ps, SameOnward h p.1 p.2 path other) :
    firstDifference? h path ps = firstDifference? h other ps := by
  refine List.find?_congr fun p hm => ?_
  rw [agreeWithin_eq_of_sameOnward path p.1 p.2 (hsame p hm)]

theorem compareWithin_eq_of_sameOnward (path : List (ListRef × ListRef)) (v w : Value)
    (hsame : SameOnward h v w path other) :
    compareWithin h path v w = compareWithin h other v w := by
  induction path, v, w using compareWithin.induct (h := h) generalizing other with
  | case1 path a b hp =>
    rw [compareWithin_list_of_mem hp, compareWithin_list_of_mem (hsame.onPath_iff.1 hp)]
  | case2 path a b hp p hm hfirst ih =>
    have hfirst' := firstDifference?_of_mem hfirst
    rw [compareWithin_list_of_not_mem hp, compareWithin_list_of_not_mem (mt hsame.onPath_iff.2 hp),
      ← firstDifference?_eq_of_sameOnward fun p hm => hsame.cons hm, hfirst']
    exact ih (hsame.cons hm)
  | case3 path a b hp hfirst =>
    rw [compareWithin_list_of_not_mem hp, compareWithin_list_of_not_mem (mt hsame.onPath_iff.2 hp),
      ← firstDifference?_eq_of_sameOnward fun p hm => hsame.cons hm,
      ← map_val_firstDifferenceMem?, hfirst]
    rfl
  | case4 path v w hlists =>
    have hleaf := leaf_of_not_lists hlists
    rw [compareWithin_leaf hleaf, compareWithin_leaf hleaf]

end Onward

/-! ### Going down to the first unequal elements -/

/-- Going down from two values to their first unequal elements, again and again, comes to an end
after this many steps. It ends at values that are not both lists and at lists without unequal
elements. -/
inductive EndsIn (h : Store) : Nat → Value → Value → Prop where
  | leaf {v w : Value} : v.list? = Option.none ∨ w.list? = Option.none → EndsIn h 0 v w
  | lengths {a b : ListRef} : (¬ ∃ i x y, FirstUnequalAt h a b i x y) →
    EndsIn h 0 (.list a) (.list b)
  | step {n i : Nat} {a b : ListRef} {x y : Value} : FirstUnequalAt h a b i x y →
    EndsIn h n x y → EndsIn h (n + 1) (.list a) (.list b)

theorem EndsIn.unique {m n : Nat} {v w : Value} (hm : EndsIn h m v w) (hn : EndsIn h n v w) :
    m = n := by
  induction hm generalizing n with
  | leaf hleaf =>
    cases hn with
    | leaf => rfl
    | lengths => rfl
    | step => simp [list?] at hleaf
  | lengths hno =>
    cases hn with
    | leaf => rfl
    | lengths => rfl
    | step hfirst => exact absurd ⟨_, _, _, hfirst⟩ hno
  | step hfirst _ ih =>
    cases hn with
    | leaf hleaf => simp [list?] at hleaf
    | lengths hno => exact absurd ⟨_, _, _, hfirst⟩ hno
    | step hfirst' hn =>
      have hsame := (exists_firstUnequalAt_iff.1 ⟨_, hfirst⟩).symm.trans
        (exists_firstUnequalAt_iff.1 ⟨_, hfirst'⟩)
      cases hsame
      rw [ih hn]

/-- No pair on the path comes to its end in so few steps. -/
def Later (h : Store) (n : Nat) (path : List (ListRef × ListRef)) : Prop :=
  ∀ c d m, (c, d) ∈ path → EndsIn h m (.list c) (.list d) → n < m

theorem later_nil (n : Nat) : Later h n [] := by
  simp [Later]

section Down

variable {path : List (ListRef × ListRef)} {n : Nat} {a b : ListRef}

theorem Later.not_mem (hpath : Later h n path) (hends : EndsIn h n (.list a) (.list b)) :
    (a, b) ∉ path :=
  fun hm => Nat.lt_irrefl n (hpath a b n hm hends)

theorem Later.cons (hpath : Later h (n + 1) path) (hends : EndsIn h (n + 1) (.list a) (.list b)) :
    Later h n ((a, b) :: path) := by
  intro c d m hm hcd
  rcases List.mem_cons.1 hm with hself | hm
  · cases hself
    rw [hcd.unique hends]
    exact Nat.lt_succ_self n
  · exact Nat.lt_of_succ_lt (hpath c d m hm hcd)

/-- Where going down ends, the path does not make unequal values agree. -/
theorem EndsIn.agreeWithin_eq {v w : Value} (hends : EndsIn h n v w) (hpath : Later h n path) :
    agreeWithin looseLeaf h path v w = equals h v w := by
  cases hvw : equals h v w with
  | true => exact agreeWithin_of_equals hvw path
  | false =>
    induction hends generalizing path with
    | leaf hleaf =>
      rw [agreeWithin_leaf hleaf]
      rw [equals, agreeWithin_leaf hleaf] at hvw
      exact hvw
    | @lengths a b hno =>
      have hnew := hpath.not_mem (.lengths hno)
      have hall := not_exists_firstUnequalAt_iff.1 hno
      have hlen : (h.elements a).length ≠ (h.elements b).length := by
        intro hlen
        have hequal := (agreeWithin_nil_list_iff looseLeaf_refl).2 ⟨hlen, hall⟩
        rw [equals, hequal] at hvw
        cases hvw
      have hab : a ≠ b := fun hab => hlen (by rw [hab])
      rw [agreeWithin_list_of_not_mem (not_or_intro hab hnew), beq_false_of_ne hlen,
        Bool.false_and]
    | @step n i a b x y hfirst hends ih =>
      have hnew := hpath.not_mem (.step hfirst hends)
      have hxy := ih (hpath.cons (.step hfirst hends)) hfirst.unequal
      have hall : ((h.elements a).zip (h.elements b)).all
          (fun p => agreeWithin looseLeaf h ((a, b) :: path) p.1 p.2) = false := by
        rw [List.all_eq_false]
        exact ⟨(x, y), hfirst.mem_zip, by simp [hxy]⟩
      rw [agreeWithin_list_of_not_mem (not_or_intro hfirst.ne hnew), hall, Bool.and_false]

/-- Where going down ends, the path does not change the order. -/
theorem EndsIn.compareWithin_eq {v w : Value} (hends : EndsIn h n v w) (hpath : Later h n path) :
    compareWithin h path v w = compareValues h v w := by
  induction hends generalizing path with
  | leaf hleaf => rw [compareValues, compareWithin_leaf hleaf, compareWithin_leaf hleaf]
  | lengths hno =>
    rw [compareValues,
      compareWithin_of_not_exists_firstUnequalAt hno (hpath.not_mem (.lengths hno)),
      compareWithin_of_not_exists_firstUnequalAt hno List.not_mem_nil]
  | @step n i a b x y hfirst hends ih =>
    -- on any path that is clear of the pair, the answer is the one for the first unequal elements
    have hdown : ∀ path, Later h (n + 1) path →
        compareWithin h path (.list a) (.list b) = compareValues h x y := by
      intro path hpath
      have hlater := hpath.cons (.step hfirst hends)
      have hxy : agreeWithin looseLeaf h ((a, b) :: path) x y = false := by
        rw [hends.agreeWithin_eq hlater, hfirst.unequal]
      rw [hfirst.compareWithin (hpath.not_mem (.step hfirst hends)) hxy, ih hlater]
    exact (hdown path hpath).trans (hdown [] (later_nil _)).symm

theorem FirstUnequalAt.symm {i : Nat} {x y : Value} (hfirst : FirstUnequalAt h a b i x y) :
    FirstUnequalAt h b a i y x where
  left := hfirst.right
  right := hfirst.left
  unequal := Bool.eq_false_iff.2 fun hyx => by
    have hxy := hfirst.unequal
    rw [equals_symm hyx] at hxy
    cases hxy
  earlier j hj u w hu hw := equals_symm (hfirst.earlier j hj w u hw hu)

theorem EndsIn.symm {v w : Value} (hends : EndsIn h n v w) : EndsIn h n w v := by
  induction hends with
  | leaf hleaf => exact .leaf hleaf.symm
  | lengths hno => exact .lengths fun ⟨i, x, y, hfirst⟩ => hno ⟨i, y, x, hfirst.symm⟩
  | step hfirst _ ih => exact .step hfirst.symm ih

/-- Going down with an acyclic value on one side goes down the tree of that value. -/
theorem exists_endsIn_of_acyclic {v : Value} (hv : h.Acyclic v) (w : Value) :
    ∃ n, EndsIn h n v w := by
  obtain ⟨t, ht⟩ := Tree.exists_denotedBy hv
  induction t using Tree.items_induction generalizing v w with
  | list items ih =>
    cases ht with
    | @list a _ hitems =>
      cases w with
      | list b =>
        by_cases hno : ∃ i x y, FirstUnequalAt h a b i x y
        · obtain ⟨i, x, y, hfirst⟩ := hno
          have hall := Tree.allDenotedBy_iff_forall₂.1 hitems
          obtain ⟨hi, hx⟩ := List.getElem?_eq_some_iff.1 hfirst.left
          have hi' : i < items.length := hall.length_eq ▸ hi
          have hxt : Tree.DenotedBy h x items[i] := hx ▸ hall.get hi hi'
          have hacyclic := hv.of_mem (List.mem_of_getElem? hfirst.left)
          obtain ⟨n, hends⟩ := ih items[i] (List.getElem_mem hi') hacyclic y hxt
          exact ⟨n + 1, .step hfirst hends⟩
        · exact ⟨0, .lengths hno⟩
      | _ => exact ⟨0, .leaf (Or.inr rfl)⟩
  | _ =>
    cases ht
    exact ⟨0, .leaf (Or.inl rfl)⟩

end Down

/-- The order of two lists is the order of their first unequal elements, if going down from these
comes to an end or does not lead back to the two lists. Without unequal elements it is the order of
the lengths. From two values of which one is acyclic going down always comes to an end. -/
theorem compareValues_lexicographic (h : Store) (a b : ListRef) :
    (∀ i x y, FirstUnequalAt h a b i x y →
      (∃ n, EndsIn h n x y) ∨ ¬ LeadsTo h x y (.list a) (.list b) →
        compareValues h (.list a) (.list b) = compareValues h x y) ∧
      ((¬ ∃ i x y, FirstUnequalAt h a b i x y) →
        compareValues h (.list a) (.list b) = .ok (compare (h.length a) (h.length b))) ∧
      ∀ x y, h.Acyclic x ∨ h.Acyclic y → ∃ n, EndsIn h n x y := by
  refine ⟨?_, ?_, ?_⟩
  · intro i x y hfirst hreason
    -- for either reason, that the lists are on the path does not show at their elements
    have hkept : agreeWithin looseLeaf h [(a, b)] x y = equals h x y ∧
        compareWithin h [(a, b)] x y = compareValues h x y := by
      rcases hreason with ⟨n, hends⟩ | hback
      · have hlater : Later h n [(a, b)] := (later_nil (n + 1)).cons (.step hfirst hends)
        exact ⟨hends.agreeWithin_eq hlater, hends.compareWithin_eq hlater⟩
      · have hsame := sameOnward_of_not_leadsTo hback
        exact ⟨agreeWithin_eq_of_sameOnward _ x y hsame,
          compareWithin_eq_of_sameOnward _ x y hsame⟩
    have hxy := hkept.1.trans hfirst.unequal
    rw [compareValues, hfirst.compareWithin List.not_mem_nil hxy, hkept.2]
  · intro hno
    exact compareWithin_of_not_exists_firstUnequalAt hno List.not_mem_nil
  · rintro x y (hx | hy)
    · exact exists_endsIn_of_acyclic hx y
    · obtain ⟨n, hends⟩ := exists_endsIn_of_acyclic hy x
      exact ⟨n, hends.symm⟩

/-- Two lists that begin with lists that contain themselves and are equal. Their second elements are
unequal lists, which lead back to the first two but differ before they do so. -/
def spiral : Store :=
  ⟨#[[.list ⟨2⟩, .list ⟨4⟩], [.list ⟨3⟩, .list ⟨5⟩], [.list ⟨2⟩], [.list ⟨3⟩],
    [.int 0, .list ⟨0⟩], [.int 1, .list ⟨1⟩], [.list ⟨3⟩, .none]], 0⟩

theorem compareValues_lexicographic_spiral :
    FirstUnequalAt spiral ⟨0⟩ ⟨1⟩ 1 (.list ⟨4⟩) (.list ⟨5⟩) ∧
      EndsIn spiral 1 (.list ⟨4⟩) (.list ⟨5⟩) ∧
      LeadsTo spiral (.list ⟨4⟩) (.list ⟨5⟩) (.list ⟨0⟩) (.list ⟨1⟩) ∧
      compareValues spiral (.list ⟨0⟩) (.list ⟨1⟩) =
        compareValues spiral (.list ⟨4⟩) (.list ⟨5⟩) ∧
      (¬ ∃ i x y, FirstUnequalAt spiral ⟨2⟩ ⟨6⟩ i x y) ∧
      compareValues spiral (.list ⟨2⟩) (.list ⟨6⟩) = .ok .lt ∧
      spiral.Acyclic (.int 0) ∧ ∃ n, EndsIn spiral n (.int 0) (.list ⟨0⟩) := by
  have hfirst : FirstUnequalAt spiral ⟨0⟩ ⟨1⟩ 1 (.list ⟨4⟩) (.list ⟨5⟩) :=
    ⟨rfl, rfl, by decide +kernel, by
      intro j hj u w hu hw
      obtain rfl : j = 0 := by omega
      cases hu
      cases hw
      decide +kernel⟩
  have hnumbers : FirstUnequalAt spiral ⟨4⟩ ⟨5⟩ 0 (.int 0) (.int 1) :=
    ⟨rfl, rfl, by decide +kernel, fun j hj => absurd hj (Nat.not_lt_zero j)⟩
  have hends : EndsIn spiral 1 (.list ⟨4⟩) (.list ⟨5⟩) := .step hnumbers (.leaf (Or.inl rfl))
  have hback : LeadsTo spiral (.list ⟨4⟩) (.list ⟨5⟩) (.list ⟨0⟩) (.list ⟨1⟩) :=
    .step (by decide) (.refl _ _)
  have hno : ¬ ∃ i x y, FirstUnequalAt spiral ⟨2⟩ ⟨6⟩ i x y := by
    rw [not_exists_firstUnequalAt_iff]
    decide +kernel
  have hzero : spiral.Acyclic (.int 0) := Store.acyclic_of_list?_eq_none rfl
  obtain ⟨helements, -, -⟩ := compareValues_lexicographic spiral ⟨0⟩ ⟨1⟩
  obtain ⟨-, hlengths, hdown⟩ := compareValues_lexicographic spiral ⟨2⟩ ⟨6⟩
  exact ⟨hfirst, hends, hback, helements 1 _ _ hfirst (Or.inl ⟨1, hends⟩), hno, hlengths hno,
    hzero, hdown _ _ (Or.inl hzero)⟩

/-- Two lists whose first elements lead straight back to them: each pair is the pair of first
unequal elements of the other. -/
def crossed : Store :=
  ⟨#[[.list ⟨2⟩, .int 0], [.list ⟨3⟩, .int 1], [.list ⟨0⟩, .int 5], [.list ⟨1⟩, .int 3]], 0⟩

/-- Each of the two pairs is compared by its second elements, since the other pair counts as equal
once the walk comes back. So the two lists are not ordered as their first unequal elements are. -/
theorem compareValues_crossed :
    (⟨0⟩ : ListRef) ≠ ⟨1⟩ ∧ FirstUnequalAt crossed ⟨0⟩ ⟨1⟩ 0 (.list ⟨2⟩) (.list ⟨3⟩) ∧
      compareValues crossed (.list ⟨0⟩) (.list ⟨1⟩) = .ok .gt ∧
      compareValues crossed (.list ⟨2⟩) (.list ⟨3⟩) = .ok .lt := by
  have hfirst : FirstUnequalAt crossed ⟨0⟩ ⟨1⟩ 0 (.list ⟨2⟩) (.list ⟨3⟩) :=
    ⟨rfl, rfl, by decide +kernel, fun j hj => absurd hj (Nat.not_lt_zero j)⟩
  exact ⟨by decide, hfirst, by decide +kernel, by decide +kernel⟩

end SharedValues.Value
