import Mathlib.Data.List.Infix
import SharedValues.Proofs.Literal.Unquoted
import SharedValues.Proofs.Store.Acyclic
import SharedValues.Value.Render

/-!
# Where writing is cut short

Writing a value goes into every list it meets, except one that it is already inside of: there it
writes `[...]` and turns back. This happens exactly when a list is reached that lies on a cycle.

If it happens, the list met again is above itself. For the converse suppose that it never happens:
then nothing keeps the walk from following any way through the lists, and so it follows a way to the
list on the cycle, once around, and meets that list while it is inside of it.

The mark can be told from the written form alone: outside of literals, `[...]` and even a single dot
come from nowhere else.
-/

namespace SharedValues.Value

open Digits Literal

variable {h : Store} {v : Value}

/-- Writing `v` comes to a value while it is inside of the lists of `path`. At a list that is on the
path it turns back; into any other list it goes. -/
inductive Visits (h : Store) (v : Value) : List ListRef → Value → Prop where
  | start : Visits h v [] v
  | enter {path : List ListRef} {r : ListRef} {w : Value} : Visits h v path (.list r) → r ∉ path →
    w ∈ h.elements r → Visits h v (r :: path) w

/-- Writing `v` is cut short at least once. -/
def IsCut (h : Store) (v : Value) : Prop := ∃ path r, Visits h v path (.list r) ∧ r ∈ path

/-! ### Cuts and cycles -/

section Walk

variable {path : List ListRef} {w : Value} {r : ListRef}

theorem Visits.reaches (hw : Visits h v path w) : h.Reaches v w := by
  induction hw with
  | start => exact .refl v
  | enter _ _ hmem ih => exact ih.trans (.of_mem hmem)

theorem Visits.above (hw : Visits h v path w) : h.Above path w := by
  induction hw with
  | start => exact Store.above_nil v
  | enter _ _ hmem ih => exact ih.cons_of_mem hmem

/-- A walk that is never cut short goes wherever lists lead, and stays inside of the lists it was
inside of. -/
theorem Visits.exists_of_reaches (hcut : ¬ IsCut h v) {u : Value} (hw : Visits h v path w)
    (hwu : h.Reaches w u) : ∃ longer, path ⊆ longer ∧ Visits h v longer u := by
  induction hwu generalizing path with
  | refl => exact ⟨path, List.Subset.refl path, hw⟩
  | @step s _ _ hmem _ ih =>
    have hs : s ∉ path := fun hs => hcut ⟨path, s, hw, hs⟩
    obtain ⟨longer, hsub, hu⟩ := ih (hw.enter hs hmem)
    exact ⟨longer, List.Subset.trans (List.subset_cons_self s path) hsub, hu⟩

theorem isCut_of_onCycle (hr : h.Reaches v (.list r)) (hcycle : h.OnCycle r) : IsCut h v := by
  by_contra hcut
  obtain ⟨path, -, hvisit⟩ := Visits.exists_of_reaches hcut .start hr
  have hnew : r ∉ path := fun hm => hcut ⟨path, r, hvisit, hm⟩
  obtain ⟨u, hu, haround⟩ := hcycle
  obtain ⟨longer, hsub, hagain⟩ := (hvisit.enter hnew hu).exists_of_reaches hcut haround
  exact hcut ⟨longer, r, hagain, hsub List.mem_cons_self⟩

theorem isCut_iff : IsCut h v ↔ ∃ r, h.Reaches v (.list r) ∧ h.OnCycle r := by
  constructor
  · rintro ⟨path, r, hvisit, hm⟩
    exact ⟨r, hvisit.reaches, hvisit.above r hm⟩
  · rintro ⟨r, hr, hcycle⟩
    exact isCut_of_onCycle hr hcycle

/-! ### Lists that lie on no cycle -/

/-- The path shows only at the lists that are on it. -/
theorem writeWithin_congr (path : List ListRef) (w : Value) {other : List ListRef}
    (hsame : ∀ r, h.Reaches w (.list r) → (r ∈ path ↔ r ∈ other)) :
    writeWithin h path w = writeWithin h other w := by
  induction path, w using writeWithin.induct (h := h) generalizing other with
  | case7 path r hr =>
    rw [writeWithin_list_of_mem hr, writeWithin_list_of_mem ((hsame r (.refl _)).1 hr)]
  | case8 path r hr ih =>
    have hitems : (h.elements r).map (writeWithin h (r :: path)) =
        (h.elements r).map (writeWithin h (r :: other)) := by
      refine List.map_congr_left fun w hm => ih w hm ?_
      intro s hs
      rw [List.mem_cons, List.mem_cons, hsame s (.step hm hs)]
    rw [writeWithin_list_of_not_mem hr,
      writeWithin_list_of_not_mem (mt (hsame r (.refl _)).2 hr), hitems]
  | _ => simp only [writeWithin]

/-- A list that reaches a list above itself lies on a cycle. -/
theorem onCycle_of_above (habove : h.Above path (.list r)) {s : ListRef} (hs : s ∈ path)
    (hrs : h.Reaches (.list r) (.list s)) : h.OnCycle r := by
  obtain ⟨u, hu, hback⟩ := habove s hs
  cases hrs with
  | refl => exact ⟨u, hu, hback⟩
  | step hmem hreach => exact ⟨_, hmem, hreach.trans (.step hu hback)⟩

/-- Wherever writing comes to a list that lies on no cycle, the list is written as it is on its
own. -/
theorem Visits.writeWithin_eq (hvisit : Visits h v path (.list r)) (hr : ¬ h.OnCycle r) :
    writeWithin h path (.list r) = write h (.list r) := by
  refine writeWithin_congr path (.list r) fun s hrs => ?_
  have hs : s ∉ path := fun hs => hr (onCycle_of_above hvisit.above hs hrs)
  simp [hs]

end Walk

/-! ### The mark in the written form -/

/-- A character that is neither a quote nor a dot. -/
def IsInert (c : Char) : Prop := isQuote c = false ∧ c ≠ '.'

theorem isInert_of_isDigit {c : Char} (hc : c.isDigit = true) : IsInert c := by
  have hne : ∀ d : Char, d.isDigit = false → c ≠ d := fun d hd => ne_of_isDigit hc hd
  simp [IsInert, isQuote, hne '\'' rfl, hne '"' rfl, hne '.' rfl]

theorem isInert_of_mem_decimal {n : Int} {c : Char} (hc : c ∈ decimal n) : IsInert c := by
  have hdigits : ∀ m, c ∈ Nat.toDigits 10 m → IsInert c := fun m hm =>
    isInert_of_isDigit (Nat.isDigit_of_mem_toDigits (by decide) (by decide) hm)
  cases n with
  | ofNat m => exact hdigits m hc
  | negSucc m =>
    rcases List.mem_cons.1 hc with rfl | hm
    · simp [IsInert, isQuote]
    · exact hdigits (m + 1) hm

/-- A written form that is balanced, and has no dot outside of its literals. -/
def IsUncut (cs : List Char) : Prop := Balanced cs ∧ '.' ∉ unquoted cs

theorem isUncut_of_inert {cs : List Char} (hcs : ∀ c ∈ cs, IsInert c) : IsUncut cs := by
  have hplain : ∀ c ∈ cs, isQuote c = false := fun c hc => (hcs c hc).1
  refine ⟨balanced_of_plain hplain, ?_⟩
  rw [unquoted_of_plain hplain]
  intro hdot
  exact (hcs '.' hdot).2 rfl

theorem isUncut_quoted (shown : Char → Bool) (cs : List Char) : IsUncut (quoted shown cs) := by
  refine ⟨balanced_quoted shown cs, ?_⟩
  rw [unquoted_quoted]
  exact List.not_mem_nil

theorem IsUncut.append {xs ys : List Char} (hx : IsUncut xs) (hy : IsUncut ys) :
    IsUncut (xs ++ ys) := by
  refine ⟨hx.1.append hy.1, ?_⟩
  rw [hx.1, List.mem_append]
  exact not_or_intro hx.2 hy.2

theorem isUncut_writeWithin_of_list?_eq_none (path : List ListRef) {w : Value}
    (hw : w.list? = Option.none) : IsUncut (writeWithin h path w) := by
  cases w with
  | none => simpa only [writeWithin] using isUncut_of_inert (by simp [IsInert, isQuote])
  | bool b =>
    cases b <;> simpa only [writeWithin] using isUncut_of_inert (by simp [IsInert, isQuote])
  | int n =>
    simpa only [writeWithin] using isUncut_of_inert fun c hc => isInert_of_mem_decimal hc
  | text object => simpa only [writeWithin, ofText] using isUncut_quoted _ _
  | bytes object =>
    have hletter : IsUncut ['b'] := isUncut_of_inert (by simp [IsInert, isQuote])
    simp only [writeWithin, ofBytes]
    exact hletter.append (isUncut_quoted _ _)
  | list r => cases hw

section Brackets

variable {items : List (List Char)}

/-- What holds of the items and of the mark between them, and can be put together, holds of the
whole. -/
theorem intercalate_of_append {P : List Char → Prop} {separator : List Char} (hnil : P [])
    (happend : ∀ xs ys, P xs → P ys → P (xs ++ ys)) (hseparator : P separator)
    (hitems : ∀ item ∈ items, P item) : P (separator.intercalate items) := by
  induction items with
  | nil => exact hnil
  | cons item rest ih =>
    obtain ⟨hitem, hrest⟩ := List.forall_mem_cons.1 hitems
    cases rest with
    | nil => rwa [List.intercalate_singleton]
    | cons next rest =>
      rw [List.intercalate_cons_cons]
      exact happend _ _ (happend _ _ hitem hseparator) (ih hrest)

theorem isUncut_bracketed (hitems : ∀ item ∈ items, IsUncut item) : IsUncut (bracketed items) := by
  have hnil : IsUncut [] := isUncut_of_inert (by simp)
  have hopen : IsUncut ['['] := isUncut_of_inert (by simp [IsInert, isQuote])
  have hclose : IsUncut [']'] := isUncut_of_inert (by simp [IsInert, isQuote])
  have hseparator : IsUncut [',', ' '] := isUncut_of_inert (by simp [IsInert, isQuote])
  have hinner := intercalate_of_append hnil (fun _ _ => IsUncut.append) hseparator hitems
  exact hopen.append (hinner.append hclose)

theorem balanced_intercalate (hitems : ∀ item ∈ items, Balanced item) :
    Balanced ([',', ' '].intercalate items) :=
  intercalate_of_append balanced_nil (fun _ _ => Balanced.append)
    (balanced_of_plain (by simp [isQuote])) hitems

theorem balanced_bracketed (hitems : ∀ item ∈ items, Balanced item) :
    Balanced (bracketed items) := by
  have hopen : Balanced ['['] := balanced_of_plain (by simp [isQuote])
  have hclose : Balanced [']'] := balanced_of_plain (by simp [isQuote])
  exact hopen.append ((balanced_intercalate hitems).append hclose)

theorem isInfix_unquoted_intercalate (hitems : ∀ item ∈ items, Balanced item) {item : List Char}
    (hitem : item ∈ items) : unquoted item <:+: unquoted ([',', ' '].intercalate items) := by
  induction items with
  | nil => exact absurd hitem List.not_mem_nil
  | cons first rest ih =>
    obtain ⟨hfirst, hrest⟩ := List.forall_mem_cons.1 hitems
    cases rest with
    | nil =>
      rw [List.mem_singleton.1 hitem, List.intercalate_singleton]
    | cons next rest =>
      have hseparator : Balanced [',', ' '] := balanced_of_plain (by simp [isQuote])
      rw [List.intercalate_cons_cons, List.append_assoc, hfirst, hseparator]
      rcases List.mem_cons.1 hitem with rfl | hm
      · exact (List.prefix_append _ _).isInfix
      · exact List.infix_append_of_infix_right (List.infix_append_of_infix_right (ih hrest hm))

theorem isInfix_unquoted_bracketed (hitems : ∀ item ∈ items, Balanced item) {item : List Char}
    (hitem : item ∈ items) : unquoted item <:+: unquoted (bracketed items) := by
  have hopen : Balanced ['['] := balanced_of_plain (by simp [isQuote])
  rw [bracketed, ← List.singleton_append, hopen, balanced_intercalate hitems]
  exact List.infix_append_of_infix_right
    (List.infix_append_of_infix_left (isInfix_unquoted_intercalate hitems hitem))

end Brackets

section Written

variable {path : List ListRef} {w : Value}

theorem balanced_writeWithin (path : List ListRef) (w : Value) :
    Balanced (writeWithin h path w) := by
  induction path, w using writeWithin.induct (h := h) with
  | case7 path r hr =>
    rw [writeWithin_list_of_mem hr]
    exact balanced_of_plain (by simp [cut, isQuote])
  | case8 path r hr ih =>
    rw [writeWithin_list_of_not_mem hr]
    exact balanced_bracketed (List.forall_mem_map.2 ih)
  | _ => exact (isUncut_writeWithin_of_list?_eq_none _ rfl).1

/-- What writing shows outside of literals where it comes to a value, the whole shows too. -/
theorem Visits.isInfix_unquoted (hw : Visits h v path w) :
    unquoted (writeWithin h path w) <:+: unquoted (write h v) := by
  induction hw with
  | start => exact List.infix_rfl
  | @enter path r w _ hr hmem ih =>
    rw [writeWithin_list_of_not_mem hr] at ih
    refine (isInfix_unquoted_bracketed ?_ (List.mem_map_of_mem hmem)).trans ih
    exact List.forall_mem_map.2 fun u _ => balanced_writeWithin (r :: path) u

theorem isUncut_writeWithin (hcut : ¬ IsCut h v) (path : List ListRef) (w : Value)
    (hw : Visits h v path w) : IsUncut (writeWithin h path w) := by
  induction path, w using writeWithin.induct (h := h) with
  | case7 path r hr => exact absurd ⟨path, r, hw, hr⟩ hcut
  | case8 path r hr ih =>
    rw [writeWithin_list_of_not_mem hr]
    exact isUncut_bracketed (List.forall_mem_map.2 fun u hm => ih u hm (hw.enter hr hm))
  | _ => exact isUncut_writeWithin_of_list?_eq_none _ rfl

/-- The mark stands outside of literals exactly when writing is cut short. -/
theorem cut_isInfix_unquoted_iff : cut <:+: unquoted (write h v) ↔ IsCut h v := by
  constructor
  · intro hshown
    by_contra hcut
    exact (isUncut_writeWithin hcut [] v .start).2 (hshown.subset (by decide))
  · rintro ⟨path, r, hvisit, hr⟩
    have hshown := hvisit.isInfix_unquoted
    rwa [writeWithin_list_of_mem hr, unquoted_of_plain (by simp [cut, isQuote])] at hshown

end Written

/-- Writing a value is cut short exactly when the value reaches a list that lies on a cycle, and
this is exactly when `[...]` stands outside of literals in the written form. A list that lies on no
cycle is never cut: wherever it is met, it is written as it is on its own. -/
theorem repr_cut_iff_reaches_cycle (h : Store) (v : Value) :
    ((∃ path r, Visits h v path (.list r) ∧ r ∈ path) ↔
        ∃ r, h.Reaches v (.list r) ∧ h.OnCycle r) ∧
      (cut <:+: unquoted (repr h v).toList ↔ ∃ r, h.Reaches v (.list r) ∧ h.OnCycle r) ∧
      ∀ path r, Visits h v path (.list r) → ¬ h.OnCycle r →
        r ∉ path ∧ writeWithin h path (.list r) = write h (.list r) := by
  refine ⟨isCut_iff, ?_, ?_⟩
  · rw [repr, String.toList_ofList, cut_isInfix_unquoted_iff, isCut_iff]
  · intro path r hvisit hr
    exact ⟨fun hm => hr (hvisit.above r hm), hvisit.writeWithin_eq hr⟩

/-- A list that holds another list twice, a text that looks like the mark, and a list that contains
itself and the shared list. -/
def sharing : Store :=
  ⟨#[[.list ⟨1⟩, .list ⟨1⟩, .text ⟨0, "[...]"⟩, .list ⟨2⟩], [.int 0], [.list ⟨1⟩, .list ⟨2⟩]], 1⟩

theorem repr_cut_iff_reaches_cycle_sharing :
    repr sharing (.list ⟨0⟩) = "[[0], [0], '[...]', [[0], [...]]]" ∧
      Visits sharing (.list ⟨0⟩) [⟨2⟩, ⟨0⟩] (.list ⟨1⟩) ∧ ¬ sharing.OnCycle ⟨1⟩ ∧
      writeWithin sharing [⟨2⟩, ⟨0⟩] (.list ⟨1⟩) = "[0]".toList ∧
      cut <:+: unquoted (repr sharing (.list ⟨0⟩)).toList := by
  have hwhole : repr sharing (.list ⟨0⟩) = "[[0], [0], '[...]', [[0], [...]]]" := by decide +kernel
  have hfirst : Visits sharing (.list ⟨0⟩) [⟨0⟩] (.list ⟨2⟩) :=
    Visits.start.enter (by decide) (by decide)
  have hshared : Visits sharing (.list ⟨0⟩) [⟨2⟩, ⟨0⟩] (.list ⟨1⟩) :=
    hfirst.enter (by decide) (by decide)
  have hnone : ¬ sharing.OnCycle ⟨1⟩ := by
    rintro ⟨u, hu, hback⟩
    have hzero : u = .int 0 := List.mem_singleton.1 hu
    rw [hzero, Store.reaches_iff_of_list?_eq_none rfl] at hback
    cases hback
  have hcycle : sharing.OnCycle ⟨2⟩ := ⟨.list ⟨2⟩, by decide, .refl _⟩
  obtain ⟨-, hmark, hfull⟩ := repr_cut_iff_reaches_cycle sharing (.list ⟨0⟩)
  refine ⟨hwhole, hshared, hnone, ?_, hmark.2 ⟨⟨2⟩, hfirst.reaches, hcycle⟩⟩
  rw [(hfull _ _ hshared hnone).2]
  decide +kernel

end SharedValues.Value
