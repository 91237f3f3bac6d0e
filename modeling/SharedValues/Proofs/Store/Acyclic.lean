import SharedValues.Store.Reach

/-!
# Acyclic values

From an acyclic value a walk into lists never comes back to a list it is inside of: every list on
its path reaches the value it stands at, so a list met again would lie on a cycle.

A store has no cycle at all if every list holds only lists that are older than itself.
-/

namespace SharedValues.Store

/-- Every list on the path reaches the value through one or more element steps. -/
def Above (h : Store) (path : List ListRef) (v : Value) : Prop :=
  ∀ s ∈ path, ∃ u ∈ h.elements s, h.Reaches u v

variable {h : Store} {path : List ListRef} {r : ListRef}

theorem above_nil (v : Value) : h.Above [] v := by
  simp [Above]

theorem Above.cons_of_mem (hpath : h.Above path (.list r)) {v : Value} (hv : v ∈ h.elements r) :
    h.Above (r :: path) v := by
  intro s hs
  rcases List.mem_cons.1 hs with rfl | hs
  · exact ⟨v, hv, .refl v⟩
  · obtain ⟨u, hu, hreach⟩ := hpath s hs
    exact ⟨u, hu, hreach.trans (.of_mem hv)⟩

theorem Acyclic.not_mem_of_above (hr : h.Acyclic (.list r)) (hpath : h.Above path (.list r)) :
    r ∉ path := by
  intro hmem
  exact hr r (.refl _) (hpath r hmem)

/-! ### Older lists -/

theorem Reaches.id_le (hold : ∀ i < h.size, ∀ v ∈ h.elements ⟨i⟩, ∀ s ∈ v.list?, s.id < i)
    {v w : Value} (hvw : h.Reaches v w) {a b : ListRef} (hv : v = .list a) (hw : w = .list b) :
    b.id ≤ a.id := by
  induction hvw generalizing a with
  | refl =>
    rw [hv] at hw
    cases hw
    exact Nat.le_refl _
  | @step r u w hu huw ih =>
    cases hv
    cases u with
    | list s =>
      have hs : s.id < r.id := hold r.id (holds_of_mem_elements hu) _ hu s rfl
      have hle := ih rfl hw
      omega
    | _ =>
      rw [reaches_iff_of_list?_eq_none rfl] at huw
      rw [← huw] at hw
      cases hw

/-- Where every list holds only older lists, every value is acyclic. -/
theorem acyclic_of_older (hold : ∀ i < h.size, ∀ v ∈ h.elements ⟨i⟩, ∀ s ∈ v.list?, s.id < i)
    (v : Value) : h.Acyclic v := by
  rintro r - ⟨u, hu, hur⟩
  cases u with
  | list s =>
    have hs : s.id < r.id := hold r.id (holds_of_mem_elements hu) _ hu s rfl
    have hle := hur.id_le hold rfl rfl
    omega
  | _ =>
    rw [reaches_iff_of_list?_eq_none rfl] at hur
    cases hur

end SharedValues.Store
