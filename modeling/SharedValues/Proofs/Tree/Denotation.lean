import Mathlib.Data.List.Forall2
import SharedValues.Proofs.Store.Acyclic
import SharedValues.Value.Render
import SharedValues.Value.Tree

/-!
# The tree of an acyclic value

A walk from an acyclic value never meets a list that it is inside of. Hence the value denotes a
tree, and writing the value, which watches its path, is writing the tree, which does not.
-/

namespace SharedValues

namespace Tree

/-- Induction on a tree, with one hypothesis for each item of a list. -/
@[elab_as_elim]
theorem items_induction {P : Tree → Prop} (t : Tree) (none : P .none) (bool : ∀ b, P (.bool b))
    (int : ∀ n, P (.int n)) (bytes : ∀ data, P (.bytes data)) (text : ∀ data, P (.text data))
    (list : ∀ items, (∀ t ∈ items, P t) → P (.list items)) : P t := by
  refine @Tree.rec P (fun items => ∀ t ∈ items, P t) none bool int bytes text list ?_ ?_ t
  · intro t ht
    exact absurd ht List.not_mem_nil
  · intro head tail hhead htail
    exact List.forall_mem_cons.2 ⟨hhead, htail⟩

variable {h : Store}

theorem allDenotedBy_iff_forall₂ {vs : List Value} {ts : List Tree} :
    AllDenotedBy h vs ts ↔ List.Forall₂ (DenotedBy h) vs ts := by
  induction vs generalizing ts with
  | nil =>
    constructor
    · intro hts
      cases hts
      exact .nil
    · intro hts
      cases hts
      exact .nil
  | cons v vs ih =>
    constructor
    · intro hts
      cases hts with
      | cons hv hvs => exact .cons hv (ih.1 hvs)
    · intro hts
      cases hts with
      | cons hv hvs => exact .cons hv (ih.2 hvs)

theorem denotedBy_list_iff {r : ListRef} {t : Tree} :
    DenotedBy h (.list r) t ↔
      ∃ ts, t = .list ts ∧ List.Forall₂ (DenotedBy h) (h.elements r) ts := by
  constructor
  · intro ht
    cases ht with
    | list hts => exact ⟨_, rfl, allDenotedBy_iff_forall₂.1 hts⟩
  · rintro ⟨ts, rfl, hts⟩
    exact .list (allDenotedBy_iff_forall₂.2 hts)

theorem exists_forall₂_denotedBy {vs : List Value} (hvs : ∀ v ∈ vs, ∃ t, DenotedBy h v t) :
    ∃ ts, List.Forall₂ (DenotedBy h) vs ts := by
  induction vs with
  | nil => exact ⟨[], .nil⟩
  | cons v vs ih =>
    obtain ⟨hv, hrest⟩ := List.forall_mem_cons.1 hvs
    obtain ⟨t, ht⟩ := hv
    obtain ⟨ts, hts⟩ := ih hrest
    exact ⟨t :: ts, .cons ht hts⟩

/-- An acyclic value denotes a tree, wherever a walk has met it. -/
theorem exists_denotedBy_of_above (path : List ListRef) (v : Value) (hpath : h.Above path v)
    (hv : h.Acyclic v) : ∃ t, DenotedBy h v t := by
  induction path, v using Value.writeWithin.induct (h := h) with
  | case1 => exact ⟨_, .none⟩
  | case2 => exact ⟨_, .bool true⟩
  | case3 => exact ⟨_, .bool false⟩
  | case4 _ n => exact ⟨_, .int n⟩
  | case5 _ object => exact ⟨_, .bytes object⟩
  | case6 _ object => exact ⟨_, .text object⟩
  | case7 path r hr => exact absurd hr (hv.not_mem_of_above hpath)
  | case8 path r hr ih =>
    have hitems : ∀ v ∈ h.elements r, ∃ t, DenotedBy h v t :=
      fun v hm => ih v hm (hpath.cons_of_mem hm) (hv.of_mem hm)
    obtain ⟨ts, hts⟩ := exists_forall₂_denotedBy hitems
    exact ⟨.list ts, denotedBy_list_iff.2 ⟨ts, rfl, hts⟩⟩

theorem exists_denotedBy {v : Value} (hv : h.Acyclic v) : ∃ t, DenotedBy h v t :=
  exists_denotedBy_of_above [] v (Store.above_nil v) hv

/-! ### Writing -/

theorem writeItems_cons_cons (t u : Tree) (rest : List Tree) :
    writeItems (t :: u :: rest) = write t ++ ',' :: ' ' :: writeItems (u :: rest) := by
  rw [writeItems]
  simp

theorem writeItems_eq_intercalate (ts : List Tree) :
    writeItems ts = [',', ' '].intercalate (ts.map write) := by
  induction ts with
  | nil => simp [writeItems]
  | cons t rest ih =>
    cases rest with
    | nil => simp [writeItems]
    | cons u rest => simp [writeItems_cons_cons, ih, List.intercalate]

theorem map_eq_map_of_forall₂ {α β γ : Type} {R : α → β → Prop} {f : α → γ} {g : β → γ}
    {as : List α} {bs : List β} (hab : List.Forall₂ R as bs)
    (hfg : ∀ a ∈ as, ∀ b, R a b → f a = g b) : as.map f = bs.map g := by
  induction hab with
  | nil => rfl
  | cons hhead _ ih =>
    obtain ⟨hfirst, hrest⟩ := List.forall_mem_cons.1 hfg
    rw [List.map_cons, List.map_cons, hfirst _ hhead, ih hrest]

/-- Wherever a walk has met an acyclic value, it writes the value as its tree is written. -/
theorem writeWithin_eq_of_above (path : List ListRef) (v : Value) {t : Tree}
    (ht : DenotedBy h v t) (hpath : h.Above path v) (hv : h.Acyclic v) :
    Value.writeWithin h path v = t.write := by
  induction path, v using Value.writeWithin.induct (h := h) generalizing t with
  | case1 => cases ht; simp [Value.writeWithin, write]
  | case2 => cases ht; simp [Value.writeWithin, write]
  | case3 => cases ht; simp [Value.writeWithin, write]
  | case4 => cases ht; simp [Value.writeWithin, write]
  | case5 => cases ht; simp [Value.writeWithin, write]
  | case6 => cases ht; simp [Value.writeWithin, write]
  | case7 path r hr => exact absurd hr (hv.not_mem_of_above hpath)
  | case8 path r hr ih =>
    obtain ⟨ts, rfl, hts⟩ := denotedBy_list_iff.1 ht
    have hitems : (h.elements r).map (Value.writeWithin h (r :: path)) = ts.map write :=
      map_eq_map_of_forall₂ hts fun v hm t ht =>
        ih v hm ht (hpath.cons_of_mem hm) (hv.of_mem hm)
    rw [Value.writeWithin_list_of_not_mem hr, hitems, Value.bracketed, write,
      writeItems_eq_intercalate]

theorem write_eq_of_denotedBy {v : Value} {t : Tree} (ht : DenotedBy h v t) (hv : h.Acyclic v) :
    Value.write h v = t.write :=
  writeWithin_eq_of_above [] v ht (Store.above_nil v) hv

end Tree

end SharedValues
