import SharedValues.Proofs.Literal.RoundTrip
import SharedValues.Proofs.Tree.Agreement

/-!
# Trees are told from their written form

The written form of a tree determines the tree, and where in a longer text it ends. The first
character tells the kind. A literal ends where its reader stops, and a list with its bracket; only an
integer could run on, so what follows a written form must be nothing, a comma or a closing bracket.
This is what follows it inside of a list.

Together with the tree of a value: acyclic values are written alike exactly when they are strictly
equal.
-/

namespace SharedValues.Tree

open Digits Literal

/-- What may follow a written form. -/
def Follows : List Char → Prop
  | [] => True
  | c :: _ => c = ',' ∨ c = ']'

/-- A tree that can be told from its written form, whatever follows it. -/
def Legible (s : Tree) : Prop :=
  ∀ (t : Tree) (x y : List Char), Follows x → Follows y → s.write ++ x = t.write ++ y →
    s = t ∧ x = y

/-! ### Integers -/

theorem takeWhile_isDigit_eq_nil {x : List Char} (hx : Follows x) :
    x.takeWhile Char.isDigit = [] := by
  cases x with
  | nil => rfl
  | cons c rest => rcases hx with rfl | rfl <;> simp

theorem takeWhile_isDigit_toDigits_append (n : Nat) {x : List Char} (hx : Follows x) :
    (Nat.toDigits 10 n ++ x).takeWhile Char.isDigit = Nat.toDigits 10 n := by
  have hdigits : ∀ c ∈ Nat.toDigits 10 n, c.isDigit = true :=
    fun c hc => Nat.isDigit_of_mem_toDigits (by decide) (by decide) hc
  rw [List.takeWhile_append_of_pos hdigits, takeWhile_isDigit_eq_nil hx, List.append_nil]

theorem toDigits_append_inj {m n : Nat} {x y : List Char} (hx : Follows x) (hy : Follows y)
    (hmn : Nat.toDigits 10 m ++ x = Nat.toDigits 10 n ++ y) : m = n ∧ x = y := by
  have hdigits : Nat.toDigits 10 m = Nat.toDigits 10 n := by
    rw [← takeWhile_isDigit_toDigits_append m hx, hmn, takeWhile_isDigit_toDigits_append n hy]
  constructor
  · rw [← Nat.ofDigitChars_ten_toDigits (n := m), hdigits, Nat.ofDigitChars_ten_toDigits]
  · rw [hdigits] at hmn
    exact List.append_cancel_left hmn

theorem toDigits_append_ne_minus (n : Nat) (x rest : List Char) :
    Nat.toDigits 10 n ++ x ≠ '-' :: rest := by
  intro hminus
  obtain ⟨c, tail, hdigits, hc⟩ := exists_head_toDigits n
  rw [hdigits, List.cons_append, List.cons.injEq] at hminus
  exact ne_of_isDigit hc rfl hminus.1

theorem decimal_append_inj {m n : Int} {x y : List Char} (hx : Follows x) (hy : Follows y)
    (hmn : decimal m ++ x = decimal n ++ y) : m = n ∧ x = y := by
  cases m with
  | ofNat m =>
    cases n with
    | ofNat n =>
      obtain ⟨rfl, hxy⟩ := toDigits_append_inj hx hy hmn
      exact ⟨rfl, hxy⟩
    | negSucc n => exact absurd hmn (toDigits_append_ne_minus m x _)
  | negSucc m =>
    cases n with
    | ofNat n => exact absurd hmn.symm (toDigits_append_ne_minus n y _)
    | negSucc n =>
      obtain ⟨hsucc, hxy⟩ := toDigits_append_inj hx hy (List.cons.inj hmn).2
      exact ⟨by rw [Nat.succ.inj hsucc], hxy⟩

/-! ### The first character -/

/-- The kind of the trees whose written form begins with a character. -/
def kindOfHead (c : Char) : Kind :=
  if c = 'N' then .none
  else if c = 'T' ∨ c = 'F' then .bool
  else if c = 'b' then .bytes
  else if c = '\'' ∨ c = '"' then .text
  else if c = '[' then .list
  else .int

theorem kindOfHead_of_isDigit {c : Char} (hc : c.isDigit = true) : kindOfHead c = .int := by
  have hne : ∀ d : Char, d.isDigit = false → c ≠ d := fun d hd => ne_of_isDigit hc hd
  simp [kindOfHead, hne 'N' rfl, hne 'T' rfl, hne 'F' rfl, hne 'b' rfl, hne '\'' rfl, hne '"' rfl,
    hne '[' rfl]

theorem exists_head_decimal (n : Int) :
    ∃ c rest, decimal n = c :: rest ∧ c ≠ ']' ∧ kindOfHead c = .int := by
  cases n with
  | ofNat n =>
    obtain ⟨c, rest, hdigits, hc⟩ := exists_head_toDigits n
    exact ⟨c, rest, hdigits, ne_of_isDigit hc rfl, kindOfHead_of_isDigit hc⟩
  | negSucc n => exact ⟨'-', _, rfl, by decide, rfl⟩

/-- The first character of a written form tells the kind. It is never a closing bracket. -/
theorem exists_head_write (t : Tree) :
    ∃ c rest, t.write = c :: rest ∧ c ≠ ']' ∧ kindOfHead c = t.kind := by
  cases t with
  | none => exact ⟨'N', _, rfl, by decide, rfl⟩
  | bool b =>
    cases b with
    | true => exact ⟨'T', _, rfl, by decide, rfl⟩
    | false => exact ⟨'F', _, rfl, by decide, rfl⟩
  | int n =>
    rw [write]
    exact exists_head_decimal n
  | bytes data => exact ⟨'b', _, rfl, by decide, rfl⟩
  | text data =>
    refine ⟨quoteFor data.toList, _, rfl, ?_⟩
    rcases quoteFor_eq data.toList with hq | hq
    · rw [hq]
      exact ⟨by decide, rfl⟩
    · rw [hq]
      exact ⟨by decide, rfl⟩
  | list items => exact ⟨'[', _, rfl, by decide, rfl⟩

theorem kind_eq_of_write_append {s t : Tree} {x y : List Char}
    (hst : s.write ++ x = t.write ++ y) : s.kind = t.kind := by
  obtain ⟨c, _, hs, -, hc⟩ := exists_head_write s
  obtain ⟨d, _, ht, -, hd⟩ := exists_head_write t
  rw [hs, ht, List.cons_append, List.cons_append, List.cons.injEq] at hst
  rw [← hc, ← hd, hst.1]

/-! ### Lists -/

/-- What follows the first item of a list up to its closing bracket. -/
def writeRest : List Tree → List Char
  | [] => []
  | items => ',' :: ' ' :: writeItems items

theorem writeItems_cons (t : Tree) (rest : List Tree) :
    writeItems (t :: rest) = t.write ++ writeRest rest := by
  cases rest with
  | nil => simp [writeItems, writeRest]
  | cons u rest => rw [writeItems_cons_cons, writeRest]; simp

theorem follows_writeRest_append (items : List Tree) (x : List Char) :
    Follows (writeRest items ++ ']' :: x) := by
  cases items with
  | nil => exact Or.inr rfl
  | cons t rest => exact Or.inl rfl

theorem writeItems_append_inj {ss ts : List Tree} {x y : List Char}
    (hss : ∀ s ∈ ss, Legible s)
    (hst : writeItems ss ++ ']' :: x = writeItems ts ++ ']' :: y) : ss = ts ∧ x = y := by
  induction ss generalizing ts with
  | nil =>
    cases ts with
    | nil => exact ⟨rfl, (List.cons.inj hst).2⟩
    | cons t ts =>
      -- A list without items closes at once, where any other begins an item.
      obtain ⟨c, rest, ht, hc, -⟩ := exists_head_write t
      rw [writeItems_cons, ht] at hst
      exact absurd (List.cons.inj hst).1.symm hc
  | cons s ss ih =>
    obtain ⟨hs, hrest⟩ := List.forall_mem_cons.1 hss
    cases ts with
    | nil =>
      obtain ⟨c, rest, hw, hc, -⟩ := exists_head_write s
      rw [writeItems_cons, hw] at hst
      exact absurd (List.cons.inj hst).1 hc
    | cons t ts =>
      rw [writeItems_cons, writeItems_cons, List.append_assoc, List.append_assoc] at hst
      obtain ⟨rfl, hafter⟩ := hs t _ _ (follows_writeRest_append ss x)
        (follows_writeRest_append ts y) hst
      cases ss with
      | nil =>
        cases ts with
        | nil => exact ⟨rfl, (List.cons.inj hafter).2⟩
        | cons t ts => exact absurd (List.cons.inj hafter).1 (by decide)
      | cons s' ss =>
        cases ts with
        | nil => exact absurd (List.cons.inj hafter).1 (by decide)
        | cons t ts =>
          obtain ⟨heq, hxy⟩ := ih hrest (List.cons.inj (List.cons.inj hafter).2).2
          exact ⟨by rw [heq], hxy⟩

/-- Every tree can be told from its written form. -/
theorem legible (s : Tree) : Legible s := by
  induction s using items_induction with
  | none =>
    intro t x y _ _ hst
    cases t with
    | none => exact ⟨rfl, List.append_cancel_left hst⟩
    | _ => exact absurd (kind_eq_of_write_append hst) (by simp [kind])
  | bool b =>
    intro t x y _ _ hst
    cases t with
    | bool c =>
      have hbool : b = c ∧ x = y := by
        cases b <;> cases c <;> simp_all [write]
      exact ⟨by rw [hbool.1], hbool.2⟩
    | _ => exact absurd (kind_eq_of_write_append hst) (by simp [kind])
  | int m =>
    intro t x y hx hy hst
    cases t with
    | int n =>
      rw [write, write] at hst
      obtain ⟨rfl, hxy⟩ := decimal_append_inj hx hy hst
      exact ⟨rfl, hxy⟩
    | _ => exact absurd (kind_eq_of_write_append hst) (by simp [kind])
  | bytes a =>
    intro t x y _ _ hst
    cases t with
    | bytes b =>
      rw [write, write] at hst
      have hread := readBytes?_ofBytes_append a x
      rw [hst, readBytes?_ofBytes_append b y, Option.some.injEq, Prod.mk.injEq] at hread
      exact ⟨by rw [hread.1], hread.2.symm⟩
    | _ => exact absurd (kind_eq_of_write_append hst) (by simp [kind])
  | text a =>
    intro t x y _ _ hst
    cases t with
    | text b =>
      rw [write, write] at hst
      have hread := read?_ofText_append a x
      rw [hst, read?_ofText_append b y, Option.some.injEq, Prod.mk.injEq, String.toList_inj]
        at hread
      exact ⟨by rw [hread.1], hread.2.symm⟩
    | _ => exact absurd (kind_eq_of_write_append hst) (by simp [kind])
  | list ss ih =>
    intro t x y _ _ hst
    cases t with
    | list ts =>
      have hitems : writeItems ss ++ ']' :: x = writeItems ts ++ ']' :: y := by
        simpa [write] using hst
      obtain ⟨rfl, hxy⟩ := writeItems_append_inj ih hitems
      exact ⟨rfl, hxy⟩
    | _ => exact absurd (kind_eq_of_write_append hst) (by simp [kind])

theorem write_inj {s t : Tree} : s.write = t.write ↔ s = t := by
  constructor
  · intro hst
    exact (legible s t [] [] trivial trivial (by rw [hst])).1
  · rintro rfl
    rfl

end SharedValues.Tree

namespace SharedValues.Value

/-- Acyclic values have the same written form exactly when they are strictly equal. -/
theorem repr_eq_iff_strictEq {h : Store} {v w : Value} (hv : h.Acyclic v) (hw : h.Acyclic w) :
    repr h v = repr h w ↔ strictEq h v w = true := by
  obtain ⟨s, hs⟩ := Tree.exists_denotedBy hv
  obtain ⟨t, ht⟩ := Tree.exists_denotedBy hw
  calc repr h v = repr h w
      ↔ write h v = write h w := String.ofList_inj
    _ ↔ s.write = t.write := by
      rw [Tree.write_eq_of_denotedBy hs hv, Tree.write_eq_of_denotedBy ht hw]
    _ ↔ s = t := Tree.write_inj
    _ ↔ strictEq h v w = true := (Tree.strictEq_iff_eq hs ht).symm

/-- Two lists of two lists: the one holds a list twice, the other holds it beside a copy. -/
def shared : Store :=
  ⟨#[[.int 1], [.int 1], [.list ⟨0⟩, .list ⟨0⟩], [.list ⟨0⟩, .list ⟨1⟩]], 0⟩

theorem repr_eq_iff_strictEq_shared :
    shared.Acyclic (.list ⟨2⟩) ∧ shared.Acyclic (.list ⟨3⟩) ∧
      repr shared (.list ⟨2⟩) = repr shared (.list ⟨3⟩) ∧
      strictEq shared (.list ⟨2⟩) (.list ⟨3⟩) = true := by
  have hacyclic : ∀ v, shared.Acyclic v := Store.acyclic_of_older (by decide)
  have hstrict : strictEq shared (.list ⟨2⟩) (.list ⟨3⟩) = true := by decide +kernel
  exact ⟨hacyclic _, hacyclic _, (repr_eq_iff_strictEq (hacyclic _) (hacyclic _)).2 hstrict,
    hstrict⟩

end SharedValues.Value
