import SharedValues.Proofs.Agreement.Bisimulation
import SharedValues.Proofs.Path.Walks
import SharedValues.Proofs.Store.Extension
import SharedValues.Proofs.Tree.Agreement

/-!
# Equal values under the operators

Equal values can stand for each other under every operator: they have the same truth and the same
length, they contain the same values and are contained in the same ones, and their sums are equal.
Where an operator refuses one of them, it refuses the other; only the kind that the fault names may
differ, since a truth value can be equal to an integer.

A sum of lists is a new list. Two sums are compared in the store that holds both, an extension of
the one in which their operands are equal.
-/

namespace SharedValues.Value

open Store

variable {h : Store}

/-! ### What equal values have in common -/

theorem forall₂_equals_iff {a b : ListRef} :
    equals h (.list a) (.list b) = true ↔
      List.Forall₂ (fun v w => equals h v w = true) (h.elements a) (h.elements b) :=
  Tree.agreeWithin_list_iff_forall₂ looseLeaf_refl

section Matching

variable {R : Value → Value → Prop} {v w : Value}

theorem isTruthy_of_numeric? {n : Int} (hv : v.numeric? = some n) : isTruthy h v = (n != 0) := by
  cases v with
  | bool b => cases b <;> cases hv <;> rfl
  | int m =>
    cases hv
    rfl
  | _ => cases hv

theorem isTruthy_eq_of_matches (hvw : Matches h R v w) : isTruthy h v = isTruthy h w := by
  cases hvw with
  | none => rfl
  | bytes hd => rw [isTruthy, isTruthy, hd]
  | text hd => rw [isTruthy, isTruthy, hd]
  | number hv hw => rw [isTruthy_of_numeric? hv, isTruthy_of_numeric? hw]
  | @list a b hlen _ =>
    have hempty : (h.elements a).isEmpty = (h.elements b).isEmpty := by
      rw [Bool.eq_iff_iff, List.isEmpty_iff_length_eq_zero, List.isEmpty_iff_length_eq_zero, hlen]
    rw [isTruthy, isTruthy, hempty]

theorem toOption_length_of_numeric? {n : Int} (hv : v.numeric? = some n) :
    (length h v).toOption = Option.none := by
  cases v with
  | bool | int => rfl
  | _ => cases hv

theorem toOption_length_eq_of_matches (hvw : Matches h R v w) :
    (length h v).toOption = (length h w).toOption := by
  cases hvw with
  | none => rfl
  | bytes hd => rw [length, length, hd]
  | text hd => rw [length, length, hd]
  | number hv hw => rw [toOption_length_of_numeric? hv, toOption_length_of_numeric? hw]
  | list hlen _ => rw [length, length, Store.length_eq, Store.length_eq, hlen]

theorem numeric?_eq_of_matches (hvw : Matches h R v w) : v.numeric? = w.numeric? := by
  cases hvw with
  | number hv hw => rw [hv, hw]
  | _ => rfl

theorem bytes?_eq_of_matches (hvw : Matches h R v w) : v.bytes? = w.bytes? := by
  cases hvw with
  | bytes hd => exact congrArg some hd
  | number hv hw => cases v <;> cases w <;> simp_all [bytes?, numeric?]
  | _ => rfl

theorem text?_eq_of_matches (hvw : Matches h R v w) : v.text? = w.text? := by
  cases hvw with
  | text hd => exact congrArg some hd
  | number hv hw => cases v <;> cases w <;> simp_all [text?, numeric?]
  | _ => rfl

end Matching

/-! ### Containment -/

theorem toOption_contains_bytes (object : Boxed (List UInt8)) (w : Value) :
    (contains h (.bytes object) w).toOption =
      w.bytes?.map fun needle => hasWindow needle object.data := by
  cases w <;> rfl

theorem toOption_contains_text (object : Boxed String) (w : Value) :
    (contains h (.text object) w).toOption =
      w.text?.map fun needle =>
        occursIn (Text.utf8 needle.toList) (Text.utf8 object.data.toList) := by
  cases w <;> rfl

theorem toOption_contains_of_numeric? {v : Value} {n : Int} (hv : v.numeric? = some n) (w : Value) :
    (contains h v w).toOption = Option.none := by
  cases v with
  | bool | int => rfl
  | _ => cases hv

theorem any_equals_congr {vs vs' : List Value} {w w' : Value}
    (hvs : List.Forall₂ (fun v v' => equals h v v' = true) vs vs') (hw : equals h w w' = true) :
    (vs.any fun v => equals h v w) = vs'.any fun v => equals h v w' := by
  induction hvs with
  | nil => rfl
  | @cons v v' _ _ hv _ ih =>
    have hhead : equals h v w = equals h v' w' := by
      rw [Bool.eq_iff_iff]
      constructor
      · intro hvw
        exact equals_trans (equals_symm hv) (equals_trans hvw hw)
      · intro hvw
        exact equals_trans hv (equals_trans hvw (equals_symm hw))
    rw [List.any_cons, List.any_cons, hhead, ih]

theorem toOption_contains_congr {v v' w w' : Value} (hv : equals h v v' = true)
    (hw : equals h w w' = true) :
    (contains h v w).toOption = (contains h v' w').toOption := by
  have hmatch := matches_of_equals hw
  cases matches_of_equals hv with
  | none => rfl
  | bytes hd =>
    rw [toOption_contains_bytes, toOption_contains_bytes, bytes?_eq_of_matches hmatch, hd]
  | text hd =>
    rw [toOption_contains_text, toOption_contains_text, text?_eq_of_matches hmatch, hd]
  | number hn hn' =>
    rw [toOption_contains_of_numeric? hn, toOption_contains_of_numeric? hn']
  | list _ _ =>
    rw [contains, contains, any_equals_congr (forall₂_equals_iff.1 hv) hw]

/-! ### Sums -/

/-- What a value is as an operand of a sum. -/
inductive Summand where
  | number
  | bytes
  | text
  | list
deriving DecidableEq

def summand? : Value → Option Summand
  | .none => Option.none
  | .bool _ | .int _ => some .number
  | .bytes _ => some .bytes
  | .text _ => some .text
  | .list _ => some .list

theorem exists_add_eq_ok_iff {v w : Value} :
    (∃ a, add h v w = .ok a) ↔ ∃ k, v.summand? = some k ∧ w.summand? = some k := by
  cases v <;> cases w <;> simp [add, summand?, numeric?]

theorem summand?_eq_of_matches {R : Value → Value → Prop} {v w : Value} (hvw : Matches h R v w) :
    v.summand? = w.summand? := by
  cases hvw with
  | number hv hw => cases v <;> cases w <;> simp_all [summand?, numeric?]
  | _ => rfl

/-- The sums that there are. -/
inductive Summed (h : Store) : Value → Value → Value → Store → Prop where
  | numbers {v w : Value} {m n : Int} : v.numeric? = some m → w.numeric? = some n →
      Summed h v w (.int (m + n)) h
  | bytes (a b : Boxed (List UInt8)) :
      Summed h (.bytes a) (.bytes b) (h.newBytes (a.data ++ b.data)).1
        (h.newBytes (a.data ++ b.data)).2
  | texts (a b : Boxed String) :
      Summed h (.text a) (.text b) (h.newText (a.data ++ b.data)).1
        (h.newText (a.data ++ b.data)).2
  | lists (a b : ListRef) :
      Summed h (.list a) (.list b) (h.newList (h.elements a ++ h.elements b)).1
        (h.newList (h.elements a ++ h.elements b)).2

theorem add_eq_ok_iff {v w s : Value} {g : Store} :
    add h v w = .ok (s, g) ↔ Summed h v w s g := by
  constructor
  · intro hsum
    cases v <;> cases w <;> cases hsum <;> constructor <;> rfl
  · intro hsum
    cases hsum with
    | @numbers v w m n hv hw =>
      cases v <;> cases hv <;> cases w <;> cases hw <;> rfl
    | _ => rfl

theorem equals_leaf {v w : Value} (hvw : v.list? = Option.none ∨ w.list? = Option.none) :
    equals h v w = looseLeaf v w :=
  agreeWithin_leaf hvw

/-- Two lists of an extension are equal if their elements are equal in the store before. -/
theorem equals_lists_of_extends {g : Store} {a b : ListRef} (hh : h.Closed) (hg : Extends h g)
    (ha : ∀ v ∈ g.elements a, h.Covers v) (hb : ∀ v ∈ g.elements b, h.Covers v)
    (hequal : List.Forall₂ (fun v w => equals h v w = true) (g.elements a) (g.elements b)) :
    equals g (.list a) (.list b) = true := by
  obtain ⟨hlen, hzip⟩ := List.forall₂_iff_zip.1 hequal
  refine (agreeWithin_nil_list_iff looseLeaf_refl).2 ⟨hlen, fun p hm => ?_⟩
  obtain ⟨hfst, hsnd⟩ := List.of_mem_zip hm
  have hold : equals g p.1 p.2 = equals h p.1 p.2 :=
    equals_of_extends hg hh (ha p.1 hfst) (hb p.2 hsnd)
  exact hold.trans (hzip hm)

theorem covers_append {a b : ListRef} (hh : h.Closed) :
    ∀ v ∈ h.elements a ++ h.elements b, h.Covers v := by
  intro v hv
  rcases List.mem_append.1 hv with ha | hb
  · exact hh a v ha
  · exact hh b v hb

/-- The sums of equal lists, made one after the other. -/
theorem equals_sums_of_lists {a b a' b' : ListRef} (hh : h.Closed) (ha' : h.Holds a')
    (hb' : h.Holds b') (ha : equals h (.list a) (.list a') = true)
    (hb : equals h (.list b) (.list b') = true) :
    let sum := h.newList (h.elements a ++ h.elements b)
    let sum' := sum.2.newList (sum.2.elements a' ++ sum.2.elements b')
    equals sum'.2 sum.1 sum'.1 = true := by
  intro sum sum'
  have hfirst : Extends h sum.2 := extends_newList h _
  have hsecond : Extends sum.2 sum'.2 := extends_newList sum.2 _
  have hheld : sum.2.Holds ⟨h.size⟩ := by simp [sum, Holds]
  have hsum : sum'.2.elements ⟨h.size⟩ = h.elements a ++ h.elements b := by
    rw [hsecond.elements _ hheld, elements_newList_self]
  have hsum' : sum'.2.elements ⟨sum.2.size⟩ = h.elements a' ++ h.elements b' := by
    rw [elements_newList_self, hfirst.elements a' ha', hfirst.elements b' hb']
  refine equals_lists_of_extends hh (hfirst.trans hsecond) ?_ ?_ ?_
  · rw [hsum]
    exact covers_append hh
  · rw [hsum']
    exact covers_append hh
  · rw [hsum, hsum']
    exact List.rel_append (forall₂_equals_iff.1 ha) (forall₂_equals_iff.1 hb)

/-- Where two values have a sum, two values equal to them have a sum equal to it. -/
theorem summed_congr {v v' w w' s : Value} {h₁ : Store} (hh : h.Closed) (hcv : h.Covers v')
    (hcw : h.Covers w') (hv : equals h v v' = true) (hw : equals h w w' = true)
    (hsum : Summed h v w s h₁) :
    ∃ s' h₂, Summed h₁ v' w' s' h₂ ∧ equals h₂ s s' = true := by
  have hmv := matches_of_equals hv
  have hmw := matches_of_equals hw
  cases hsum with
  | numbers hm hn =>
    rw [numeric?_eq_of_matches hmv] at hm
    rw [numeric?_eq_of_matches hmw] at hn
    exact ⟨_, _, .numbers hm hn, agreeWithin_nil_self looseLeaf_refl _⟩
  | bytes a b =>
    cases hmv with
    | number hn _ => cases hn
    | @bytes _ a' ha =>
      cases hmw with
      | number hn _ => cases hn
      | @bytes _ b' hb =>
        refine ⟨_, _, .bytes a' b', (equals_leaf (Or.inl rfl)).trans ?_⟩
        simp [newBytes, looseLeaf, ha, hb]
  | texts a b =>
    cases hmv with
    | number hn _ => cases hn
    | @text _ a' ha =>
      cases hmw with
      | number hn _ => cases hn
      | @text _ b' hb =>
        refine ⟨_, _, .texts a' b', (equals_leaf (Or.inl rfl)).trans ?_⟩
        simp [newText, looseLeaf, ha, hb]
  | lists a b =>
    cases hmv with
    | number hn _ => cases hn
    | @list _ a' _ _ =>
      cases hmw with
      | number hn _ => cases hn
      | @list _ b' _ _ =>
        exact ⟨_, _, .lists a' b', equals_sums_of_lists hh hcv hcw hv hw⟩

theorem add_congr {v v' w w' : Value} (hh : h.Closed) (hcv : h.Covers v') (hcw : h.Covers w')
    (hv : equals h v v' = true) (hw : equals h w w' = true) :
    match add h v w with
    | .error _ => ∃ fault, add h v' w' = .error fault
    | .ok (s, h₁) => ∃ s' h₂, add h₁ v' w' = .ok (s', h₂) ∧ equals h₂ s s' = true := by
  rcases hsum : add h v w with fault | ⟨s, h₁⟩
  · have hnone : ¬ ∃ a, add h v w = .ok a := by simp [hsum]
    rw [exists_add_eq_ok_iff, summand?_eq_of_matches (matches_of_equals hv),
      summand?_eq_of_matches (matches_of_equals hw), ← exists_add_eq_ok_iff (h := h)] at hnone
    cases hsum' : add h v' w' with
    | error fault => exact ⟨fault, rfl⟩
    | ok a => exact absurd ⟨a, hsum'⟩ hnone
  · obtain ⟨s', h₂, hsum', hequal⟩ := summed_congr hh hcv hcw hv hw (add_eq_ok_iff.1 hsum)
    exact ⟨s', h₂, add_eq_ok_iff.2 hsum', hequal⟩

/-- Equal values of a closed store are exchangeable under every operator. Each answer is the same,
or both are refused; sums are equal in the store in which both have been made. -/
theorem operators_congr (hh : h.Closed) {v v' w w' : Value} (hcv : h.Covers v') (hcw : h.Covers w')
    (hv : equals h v v' = true) (hw : equals h w w' = true) :
    isTruthy h v = isTruthy h v' ∧ Value.not h v = Value.not h v' ∧
      (length h v).toOption = (length h v').toOption ∧
      (match add h v w with
        | .error _ => ∃ fault, add h v' w' = .error fault
        | .ok (s, h₁) => ∃ s' h₂, add h₁ v' w' = .ok (s', h₂) ∧ equals h₂ s s' = true) ∧
      (contains h v w).toOption = (contains h v' w').toOption := by
  have hmatch := matches_of_equals hv
  have htruth := isTruthy_eq_of_matches hmatch
  refine ⟨htruth, ?_, toOption_length_eq_of_matches hmatch, add_congr hh hcv hcw hv hw,
    toOption_contains_congr hv hw⟩
  rw [Value.not, Value.not, htruth]

theorem operators_congr_knot :
    knot.Closed ∧ equals knot (.list ⟨0⟩) (.list ⟨1⟩) = true ∧
      equals knot (.list ⟨1⟩) (.list ⟨0⟩) = true ∧
      isTruthy knot (.list ⟨0⟩) = isTruthy knot (.list ⟨1⟩) ∧
      (length knot (.list ⟨0⟩)).toOption = (length knot (.list ⟨1⟩)).toOption ∧
      (∃ s h₁ s' h₂, add knot (.list ⟨0⟩) (.list ⟨1⟩) = .ok (s, h₁) ∧
        add h₁ (.list ⟨1⟩) (.list ⟨0⟩) = .ok (s', h₂) ∧ equals h₂ s s' = true) ∧
      (contains knot (.list ⟨0⟩) (.list ⟨1⟩)).toOption =
        (contains knot (.list ⟨1⟩) (.list ⟨0⟩)).toOption := by
  have hequal : equals knot (.list ⟨0⟩) (.list ⟨1⟩) = true := by decide +kernel
  have hequal' : equals knot (.list ⟨1⟩) (.list ⟨0⟩) = true := by decide +kernel
  have hzero : knot.Covers (.list ⟨0⟩) := by decide
  have hone : knot.Covers (.list ⟨1⟩) := by decide
  obtain ⟨htruth, -, hlength, ⟨s', h₂, hsum, hsums⟩, hcontains⟩ :=
    operators_congr knot_closed hone hzero hequal hequal'
  exact ⟨knot_closed, hequal, hequal', htruth, hlength, ⟨_, _, s', h₂, rfl, hsum, hsums⟩, hcontains⟩

end SharedValues.Value
