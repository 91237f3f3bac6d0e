import SharedValues.Proofs.Agreement.Leading

/-!
# Three equalities

One object is strictly equal to itself, and strictly equal values are equal. In the other direction
only truth values matter: equal values are strictly equal exactly if, wherever the two lead to index
by index, a truth value never meets an integer (`strictEq_iff_equals`). That strict equality is an
equivalence follows from the same law for equality, since both sides of it can be turned around and
put together.

Agreement of one walk passes to the other as soon as it does so on the values to which the given ones
lead (`agreeWithin_nil_mono`), so all that is left is to compare leaves.
-/

namespace SharedValues

/-- No truth value is reached. -/
def Store.Boolless (h : Store) (v : Value) : Prop := ∀ b, ¬ h.Reaches v (.bool b)

namespace Value

/-- Wherever two values lead to, a truth value meets only a truth value. -/
def KeepsBools (h : Store) (v w : Value) : Prop :=
  ∀ x y, LeadsTo h v w x y → (x.kind = .bool ↔ y.kind = .bool)

variable {h : Store}

/-! ### Leaves -/

section Leaves

variable {v w : Value}

theorem looseLeaf_of_strictLeaf (hvw : strictLeaf v w = true) : looseLeaf v w = true := by
  cases v <;> cases w <;> simp_all [strictLeaf, looseLeaf, numeric?]

theorem strictLeaf_of_looseLeaf (hkind : v.kind = .bool ↔ w.kind = .bool)
    (hvw : looseLeaf v w = true) : strictLeaf v w = true := by
  cases v with
  | bool a =>
    cases w with
    | bool b => cases a <;> cases b <;> simp_all [strictLeaf, looseLeaf, numeric?]
    | _ => simp [kind] at hkind
  | _ => cases w <;> simp_all [strictLeaf, looseLeaf, numeric?, kind]

theorem kind_eq_of_strictLeaf (hvw : strictLeaf v w = true) : v.kind = w.kind := by
  cases v <;> cases w <;> simp_all [strictLeaf, kind]

end Leaves

/-! ### Strict equality -/

section Strict

variable {u v w : Value}

theorem strictEq_of_isSame (hvw : v.isSame w = true) : strictEq h v w = true := by
  obtain rfl := isSame_iff.1 hvw
  exact agreeWithin_nil_self strictLeaf_refl v

theorem equals_of_strictEq (hvw : strictEq h v w = true) : equals h v w = true :=
  agreeWithin_nil_mono strictLeaf_refl (fun _ _ _ => looseLeaf_of_strictLeaf) hvw

theorem kind_eq_of_strictEq (hvw : strictEq h v w = true) : v.kind = w.kind := by
  rcases lists_or_leaf v w with ⟨a, b, rfl, rfl⟩ | hnot
  · rfl
  · rw [strictEq, agreeWithin_leaf hnot] at hvw
    exact kind_eq_of_strictLeaf hvw

theorem keepsBools_of_strictEq (hvw : strictEq h v w = true) : KeepsBools h v w := by
  intro x y hlead
  have hxy : strictEq h x y = true := hlead.agree strictLeaf_refl hvw
  rw [kind_eq_of_strictEq hxy]

theorem strictEq_of_equals (hkeeps : KeepsBools h v w) (hvw : equals h v w = true) :
    strictEq h v w = true :=
  agreeWithin_nil_mono looseLeaf_refl
    (fun x y hlead => strictLeaf_of_looseLeaf (hkeeps x y hlead)) hvw

/-- Strict equality is equality that keeps truth values and integers apart at every depth. -/
theorem strictEq_iff_equals :
    strictEq h v w = true ↔ equals h v w = true ∧ KeepsBools h v w :=
  ⟨fun hvw => ⟨equals_of_strictEq hvw, keepsBools_of_strictEq hvw⟩,
    fun hvw => strictEq_of_equals hvw.2 hvw.1⟩

theorem KeepsBools.symm (hvw : KeepsBools h v w) : KeepsBools h w v :=
  fun x y hlead => (hvw y x hlead.symm).symm

theorem KeepsBools.trans (huv : KeepsBools h u v) (hvw : KeepsBools h v w)
    (hequal : equals h u v = true) : KeepsBools h u w := by
  intro x z hlead
  obtain ⟨y, hxy, hyz⟩ := hlead.between hequal
  exact (huv x y hxy).trans (hvw y z hyz)

theorem strictEq_equivalence (h : Store) : Equivalence fun v w => strictEq h v w = true := by
  refine ⟨fun v => strictEq_of_isSame (isSame_self v), ?_, ?_⟩
  · intro v w hvw
    obtain ⟨hequal, hkeeps⟩ := strictEq_iff_equals.1 hvw
    exact strictEq_iff_equals.2 ⟨equals_symm hequal, hkeeps.symm⟩
  · intro u v w huv hvw
    obtain ⟨hleft, hkeepsLeft⟩ := strictEq_iff_equals.1 huv
    obtain ⟨hright, hkeepsRight⟩ := strictEq_iff_equals.1 hvw
    exact strictEq_iff_equals.2
      ⟨equals_trans hleft hright, hkeepsLeft.trans hkeepsRight hleft⟩

/-- Where no truth value is reached, none can meet an integer. -/
theorem keepsBools_of_boolless (hv : h.Boolless v) (hw : h.Boolless w) : KeepsBools h v w := by
  have hnot : ∀ {u x : Value}, h.Boolless u → h.Reaches u x → x.kind ≠ .bool := by
    intro u x hu hreach hkind
    cases x with
    | bool b => exact hu b hreach
    | _ => cases hkind
  intro x y hlead
  obtain ⟨hx, hy⟩ := hlead.reaches
  exact iff_of_false (hnot hv hx) (hnot hw hy)

end Strict

/-- Identity implies strict equality and strict equality implies equality, on every store. Strict
equality is an equivalence; it refuses two equal values exactly if somewhere below them, at the same
indices, a truth value meets an integer. So the two equalities give the same answer for values that
reach no truth value. -/
theorem equalities_chain (h : Store) :
    (∀ v w, v.isSame w = true → strictEq h v w = true) ∧
      (∀ v w, strictEq h v w = true → equals h v w = true) ∧
      (∀ v w, h.Boolless v → h.Boolless w → strictEq h v w = equals h v w) ∧
      (Equivalence fun v w => strictEq h v w = true) ∧
      ∀ v w, strictEq h v w = true ↔ equals h v w = true ∧ KeepsBools h v w := by
  refine ⟨fun v w => strictEq_of_isSame, fun v w => equals_of_strictEq, ?_,
    strictEq_equivalence h, fun v w => strictEq_iff_equals⟩
  intro v w hv hw
  rw [Bool.eq_iff_iff, strictEq_iff_equals]
  exact and_iff_left (keepsBools_of_boolless hv hw)

/-- Two lists that hold each other, and two that hold themselves, the last with a truth value where
the others have an integer. -/
def rings : Store :=
  ⟨#[[.list ⟨1⟩, .int 1], [.list ⟨0⟩, .int 1], [.list ⟨2⟩, .int 1], [.list ⟨3⟩, .bool true]], 0⟩

theorem rings_boolless {v : Value} (hv : v ∈ [list ⟨0⟩, list ⟨2⟩]) : rings.Boolless v := by
  intro b hreach
  have hreached : rings.Reached [list ⟨0⟩, list ⟨2⟩] (bool b) := ⟨v, hv, hreach⟩
  have hmem : bool b ∈ [list ⟨0⟩, list ⟨1⟩, list ⟨2⟩, int 1] := by
    refine hreached.induction (by decide) ?_
    intro r hr
    simp only [List.mem_cons, list.injEq, reduceCtorEq, List.not_mem_nil, or_false] at hr
    rcases hr with rfl | rfl | rfl
    · decide
    · decide
    · decide
  simp at hmem

theorem equalities_chain_rings :
    rings.Boolless (.list ⟨0⟩) ∧ rings.Boolless (.list ⟨2⟩) ∧
      strictEq rings (.list ⟨0⟩) (.list ⟨2⟩) = true ∧
      equals rings (.list ⟨2⟩) (.list ⟨3⟩) = true ∧ ¬ KeepsBools rings (.list ⟨2⟩) (.list ⟨3⟩) ∧
      strictEq rings (.list ⟨2⟩) (.list ⟨3⟩) = false := by
  obtain ⟨-, -, hboolless, -, hiff⟩ := equalities_chain rings
  have hleft : rings.Boolless (.list ⟨0⟩) := rings_boolless (by decide)
  have hright : rings.Boolless (.list ⟨2⟩) := rings_boolless (by decide)
  have hring : equals rings (.list ⟨0⟩) (.list ⟨2⟩) = true := by decide +kernel
  have hbool : equals rings (.list ⟨2⟩) (.list ⟨3⟩) = true := by decide +kernel
  have hmeets : ¬ KeepsBools rings (.list ⟨2⟩) (.list ⟨3⟩) := by
    intro hkeeps
    have hkind := hkeeps (.int 1) (.bool true) (.step (by decide) (.refl _ _))
    cases hkind.2 rfl
  refine ⟨hleft, hright, (hboolless _ _ hleft hright).trans hring, hbool, hmeets, ?_⟩
  rw [← Bool.not_eq_true, hiff]
  exact fun hboth => hmeets hboth.2

end Value

end SharedValues
