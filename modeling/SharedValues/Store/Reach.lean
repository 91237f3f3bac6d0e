import SharedValues.Store.Basic

/-!
# Reachability

A value reaches another if one can go from it into lists, element by element, and arrive there. A
list lies on a cycle if one of its elements reaches it. A value is acyclic if it reaches no list
that lies on a cycle; sharing alone makes no cycle.
-/

namespace SharedValues.Store

/-- One value is reached from another through no or more element steps. -/
inductive Reaches (h : Store) : Value → Value → Prop where
  | refl (v : Value) : Reaches h v v
  | step {r : ListRef} {v w : Value} : v ∈ h.elements r → Reaches h v w → Reaches h (.list r) w

/-- A list that is reached from itself through one or more element steps. -/
def OnCycle (h : Store) (r : ListRef) : Prop := ∃ v ∈ h.elements r, h.Reaches v (.list r)

/-- A value from which no list on a cycle is reached. -/
def Acyclic (h : Store) (v : Value) : Prop := ∀ r, h.Reaches v (.list r) → ¬ h.OnCycle r

theorem Reaches.trans {h : Store} {u v w : Value} (huv : h.Reaches u v) (hvw : h.Reaches v w) :
    h.Reaches u w := by
  induction huv with
  | refl => exact hvw
  | step hmem _ ih => exact .step hmem (ih hvw)

theorem Reaches.of_mem {h : Store} {r : ListRef} {v : Value} (hv : v ∈ h.elements r) :
    h.Reaches (.list r) v :=
  .step hv (.refl v)

theorem reaches_iff_of_list?_eq_none {h : Store} {v w : Value} (hv : v.list? = none) :
    h.Reaches v w ↔ v = w := by
  constructor
  · intro hvw
    cases hvw with
    | refl => rfl
    | step _ _ => simp [Value.list?] at hv
  · intro hvw
    exact hvw ▸ .refl v

theorem acyclic_of_list?_eq_none {h : Store} {v : Value} (hv : v.list? = none) : h.Acyclic v := by
  intro r hr
  rw [reaches_iff_of_list?_eq_none hv] at hr
  simp [hr, Value.list?] at hv

theorem Acyclic.of_reaches {h : Store} {v w : Value} (hv : h.Acyclic v) (hvw : h.Reaches v w) :
    h.Acyclic w :=
  fun r hr => hv r (hvw.trans hr)

theorem Acyclic.of_mem {h : Store} {r : ListRef} {v : Value} (hr : h.Acyclic (.list r))
    (hv : v ∈ h.elements r) : h.Acyclic v :=
  hr.of_reaches (.of_mem hv)

/-! ### Several roots -/

/-- The value is reached from one of the roots. -/
def Reached (h : Store) (roots : List Value) (v : Value) : Prop := ∃ u ∈ roots, h.Reaches u v

variable {h : Store} {roots : List Value}

theorem reached_of_mem {v : Value} (hv : v ∈ roots) : h.Reached roots v := ⟨v, hv, .refl v⟩

theorem Reached.step {r : ListRef} {v : Value} (hr : h.Reached roots (.list r))
    (hv : v ∈ h.elements r) : h.Reached roots v := by
  obtain ⟨u, hu, hreach⟩ := hr
  exact ⟨u, hu, hreach.trans (.of_mem hv)⟩

theorem Reached.step_zip {a b : ListRef} {p : Value × Value} (ha : h.Reached roots (.list a))
    (hb : h.Reached roots (.list b)) (hp : p ∈ (h.elements a).zip (h.elements b)) :
    h.Reached roots p.1 ∧ h.Reached roots p.2 :=
  ⟨ha.step (List.of_mem_zip hp).1, hb.step (List.of_mem_zip hp).2⟩

/-- What holds of the roots and passes from lists to their elements holds of all that is reached. -/
theorem Reached.induction {P : Value → Prop} (hroots : ∀ v ∈ roots, P v)
    (hstep : ∀ r, P (.list r) → ∀ v ∈ h.elements r, P v) {v : Value} (hv : h.Reached roots v) :
    P v := by
  obtain ⟨u, hu, hreach⟩ := hv
  have hPu : P u := hroots u hu
  clear hu
  induction hreach with
  | refl => exact hPu
  | step hmem _ ih => exact ih (hstep _ hPu _ hmem)

end SharedValues.Store
