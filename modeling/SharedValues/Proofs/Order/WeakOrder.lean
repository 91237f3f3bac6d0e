import SharedValues.Proofs.Order.Mirror
import SharedValues.Proofs.Tree.Order

/-!
# The order of acyclic values

On acyclic values "less than" is a strict weak order where it has answers. It is transitive, and the
third comparison never fails where the first two have answered. Values that are tied, neither less
than the other, are equal, and equal values have the same answers against every other value.
-/

namespace SharedValues.Value

variable {h : Store}

/-- Both comparisons have an answer, and neither value is less than the other. -/
def Tied (h : Store) (v w : Value) : Prop :=
  lessThan h v w = .ok false ∧ lessThan h w v = .ok false

theorem lessThan_eq_true_iff {v w : Value} :
    lessThan h v w = .ok true ↔ compareValues h v w = .ok .lt := by
  cases hvw : compareValues h v w with
  | error fault => simp [lessThan, hvw, Except.map]
  | ok o => simp [lessThan, hvw, Except.map]

theorem tied_iff {v w : Value} : Tied h v w ↔ compareValues h v w = .ok .eq := by
  have hswap := compareValues_swap (h := h) v w
  cases hvw : compareValues h v w with
  | error fault => simp [Tied, lessThan, hvw, Except.map]
  | ok o =>
    rw [hvw, mirrored] at hswap
    cases o <;> simp [Tied, lessThan, hvw, hswap, Except.map]

theorem compareValues_congr {a a' c c' : Value} (ha : h.Acyclic a) (ha' : h.Acyclic a')
    (hc : h.Acyclic c) (hc' : h.Acyclic c') (haa : equals h a a' = true)
    (hcc : equals h c c' = true) :
    (compareValues h a c).toOption = (compareValues h a' c').toOption := by
  obtain ⟨s, hs⟩ := Tree.exists_denotedBy ha
  obtain ⟨s', hs'⟩ := Tree.exists_denotedBy ha'
  obtain ⟨u, hu⟩ := Tree.exists_denotedBy hc
  obtain ⟨u', hu'⟩ := Tree.exists_denotedBy hc'
  rw [Tree.equals_eq_of_denotedBy hs hs'] at haa
  rw [Tree.equals_eq_of_denotedBy hu hu'] at hcc
  rw [Tree.compareValues_eq_of_denotedBy hs hu ha, Tree.compareValues_eq_of_denotedBy hs' hu' ha']
  exact Tree.order_congr haa hcc

theorem compareValues_trans {a b c : Value} (ha : h.Acyclic a) (hb : h.Acyclic b)
    (hc : h.Acyclic c) (hab : compareValues h a b = .ok .lt)
    (hbc : compareValues h b c = .ok .lt) : compareValues h a c = .ok .lt := by
  obtain ⟨s, hs⟩ := Tree.exists_denotedBy ha
  obtain ⟨t, ht⟩ := Tree.exists_denotedBy hb
  obtain ⟨u, hu⟩ := Tree.exists_denotedBy hc
  rw [Tree.compareValues_eq_of_denotedBy hs ht ha] at hab
  rw [Tree.compareValues_eq_of_denotedBy ht hu hb] at hbc
  rw [Tree.compareValues_eq_of_denotedBy hs hu ha]
  exact Tree.order_trans hab hbc

theorem equals_self (v : Value) : equals h v v = true :=
  agreeWithin_nil_self looseLeaf_refl v

theorem compareValues_self_ne_lt (v : Value) : compareValues h v v ≠ .ok .lt := by
  intro hlt
  have hswap := compareValues_swap (h := h) v v
  rw [hlt] at hswap
  simp [mirrored] at hswap

theorem Tied.trans {a b c : Value} (ha : h.Acyclic a) (hb : h.Acyclic b) (hc : h.Acyclic c)
    (hab : Tied h a b) (hbc : Tied h b c) : Tied h a c := by
  rw [tied_iff] at hab hbc ⊢
  have hequal : equals h a b = true := ((compareWithin_eq_ok_eq_iff [] a b).1 hab).1
  rw [Tree.eq_ok_iff_toOption_eq_some] at hbc ⊢
  rw [compareValues_congr ha hb hc hc hequal (equals_self c)]
  exact hbc

/-- On acyclic values "less than" is irreflexive and transitive, and being tied is transitive.
Equal values are compared alike with every third one, from the left and from the right: with the
same answer, or both with a fault. -/
theorem lessThan_strict_weak {a b c : Value} (ha : h.Acyclic a) (hb : h.Acyclic b)
    (hc : h.Acyclic c) :
    lessThan h a a ≠ .ok true ∧
      (lessThan h a b = .ok true → lessThan h b c = .ok true → lessThan h a c = .ok true) ∧
      (Tied h a b → Tied h b c → Tied h a c) ∧
      (equals h a b = true →
        (compareValues h a c).toOption = (compareValues h b c).toOption ∧
          (compareValues h c a).toOption = (compareValues h c b).toOption) := by
  refine ⟨?_, ?_, Tied.trans ha hb hc, ?_⟩
  · rw [Ne, lessThan_eq_true_iff]
    exact compareValues_self_ne_lt a
  · intro hab hbc
    rw [lessThan_eq_true_iff] at hab hbc ⊢
    exact compareValues_trans ha hb hc hab hbc
  · intro hab
    exact ⟨compareValues_congr ha hb hc hc hab (equals_self c),
      compareValues_congr hc hc ha hb (equals_self c) hab⟩

/-- Lists of nothing, truth values, numbers and a text. The first two are equal, and each of the
others is greater than those before it. -/
def ladder : Store :=
  ⟨#[[.none, .bool true, .int 1], [.none, .int 1, .bool true], [.none, .int 1, .int 2],
    [.none, .bool true, .int 2, .text ⟨0, "a"⟩]], 1⟩

theorem lessThan_strict_weak_ladder :
    (∀ v, ladder.Acyclic v) ∧
      lessThan ladder (.list ⟨0⟩) (.list ⟨2⟩) = .ok true ∧
      lessThan ladder (.list ⟨2⟩) (.list ⟨3⟩) = .ok true ∧
      lessThan ladder (.list ⟨0⟩) (.list ⟨3⟩) = .ok true ∧
      equals ladder (.list ⟨0⟩) (.list ⟨1⟩) = true ∧
      (compareValues ladder (.list ⟨0⟩) (.list ⟨3⟩)).toOption =
        (compareValues ladder (.list ⟨1⟩) (.list ⟨3⟩)).toOption := by
  have hacyclic : ∀ v, ladder.Acyclic v := Store.acyclic_of_older (by decide)
  have hlower : lessThan ladder (.list ⟨0⟩) (.list ⟨2⟩) = .ok true := by decide +kernel
  have hupper : lessThan ladder (.list ⟨2⟩) (.list ⟨3⟩) = .ok true := by decide +kernel
  have hequal : equals ladder (.list ⟨0⟩) (.list ⟨1⟩) = true := by decide +kernel
  obtain ⟨-, htrans, -⟩ := lessThan_strict_weak (hacyclic (.list ⟨0⟩)) (hacyclic (.list ⟨2⟩))
    (hacyclic (.list ⟨3⟩))
  obtain ⟨-, -, -, hcongr⟩ := lessThan_strict_weak (hacyclic (.list ⟨0⟩)) (hacyclic (.list ⟨1⟩))
    (hacyclic (.list ⟨3⟩))
  exact ⟨hacyclic, hlower, hupper, htrans hlower hupper, hequal, (hcongr hequal).1⟩

end SharedValues.Value
