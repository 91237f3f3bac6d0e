import SharedValues.Store.Basic

/-!
# Bisimilarity

Two values are bisimilar if they cannot be told apart by looking at them and, into lists, at their
elements index by index, to any depth. This says what equality of lists that contain themselves
ought to be, without saying how it is found out.
-/

namespace SharedValues.Value

/-- Two values match if they look alike and, if they are lists, their elements are related. -/
inductive Matches (h : Store) (R : Value → Value → Prop) : Value → Value → Prop where
  | none : Matches h R .none .none
  | bytes {a b : Boxed (List UInt8)} : a.data = b.data → Matches h R (.bytes a) (.bytes b)
  | text {a b : Boxed String} : a.data = b.data → Matches h R (.text a) (.text b)
  | number {v w : Value} {n : Int} : v.numeric? = some n → w.numeric? = some n → Matches h R v w
  | list {a b : ListRef} : (h.elements a).length = (h.elements b).length →
      (∀ (i : Nat) (v w : Value), (h.elements a)[i]? = some v → (h.elements b)[i]? = some w →
        R v w) →
      Matches h R (.list a) (.list b)

/-- A relation under which related values match. -/
def IsBisimulation (h : Store) (R : Value → Value → Prop) : Prop :=
  ∀ v w, R v w → Matches h R v w

/-- Values that some bisimulation relates. -/
def Bisimilar (h : Store) (v w : Value) : Prop := ∃ R, IsBisimulation h R ∧ R v w

theorem Matches.mono {h : Store} {R S : Value → Value → Prop} (hRS : ∀ v w, R v w → S v w)
    {v w : Value} (hvw : Matches h R v w) : Matches h S v w := by
  cases hvw with
  | none => exact .none
  | bytes hd => exact .bytes hd
  | text hd => exact .text hd
  | number hv hw => exact .number hv hw
  | list hlen hel => exact .list hlen fun i v w hv hw => hRS v w (hel i v w hv hw)

/-- Bisimilar values match, with bisimilar elements. -/
theorem Bisimilar.matches {h : Store} {v w : Value} (hvw : Bisimilar h v w) :
    Matches h (Bisimilar h) v w := by
  obtain ⟨R, hR, hvw⟩ := hvw
  exact (hR v w hvw).mono fun v w hvw => ⟨R, hR, hvw⟩

theorem bisimilar_refl (h : Store) (v : Value) : Bisimilar h v v := by
  refine ⟨Eq, ?_, rfl⟩
  rintro v _ rfl
  cases v with
  | none => exact .none
  | bool b => exact .number rfl rfl
  | int n => exact .number rfl rfl
  | bytes a => exact .bytes rfl
  | text a => exact .text rfl
  | list a => exact .list rfl fun i v w hv hw => Option.some.inj (hv.symm.trans hw)

theorem Bisimilar.symm {h : Store} {v w : Value} (hvw : Bisimilar h v w) : Bisimilar h w v := by
  refine ⟨fun v w => Bisimilar h w v, ?_, hvw⟩
  intro v w hwv
  cases hwv.matches with
  | none => exact .none
  | bytes hd => exact .bytes hd.symm
  | text hd => exact .text hd.symm
  | number hw hv => exact .number hv hw
  | list hlen hel => exact .list hlen.symm fun i v w hv hw => hel i w v hw hv

theorem Bisimilar.trans {h : Store} {u v w : Value} (huv : Bisimilar h u v)
    (hvw : Bisimilar h v w) : Bisimilar h u w := by
  refine ⟨fun u w => ∃ v, Bisimilar h u v ∧ Bisimilar h v w, ?_, v, huv, hvw⟩
  rintro u w ⟨v, huv, hvw⟩
  cases huv.matches with
  | none =>
    cases hvw.matches with
    | none => exact .none
    | number hv hw => simp [numeric?] at hv
  | bytes hd =>
    cases hvw.matches with
    | bytes he => exact .bytes (hd.trans he)
    | number hv hw => simp [numeric?] at hv
  | text hd =>
    cases hvw.matches with
    | text he => exact .text (hd.trans he)
    | number hv hw => simp [numeric?] at hv
  | number hu hv =>
    cases hvw.matches with
    | number hv' hw => exact .number hu ((hv'.symm.trans hv) ▸ hw)
    | none => simp [numeric?] at hv
    | bytes _ => simp [numeric?] at hv
    | text _ => simp [numeric?] at hv
    | list _ _ => simp [numeric?] at hv
  | list hlen hel =>
    cases hvw.matches with
    | number hv hw => simp [numeric?] at hv
    | list hlen' hel' =>
      refine .list (hlen.trans hlen') fun i x z hx hz => ?_
      obtain ⟨hi, rfl⟩ := List.getElem?_eq_some_iff.1 hx
      have hy := List.getElem?_eq_getElem (hlen ▸ hi)
      exact ⟨_, hel i _ _ hx hy, hel' i _ _ hy hz⟩

end SharedValues.Value
