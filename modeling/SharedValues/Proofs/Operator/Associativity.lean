import SharedValues.Proofs.Agreement.Strictness
import SharedValues.Proofs.Operator.Congruence

/-!
# Sums of three values

What a value brings into a sum is its content: a number, some bytes, a text or the elements of a
list. A sum holds the contents of its operands put together, in a store that extends the one before
it, so the contents of all other values stay as they are. Three values can therefore be added in the
two ways exactly if their contents can be put together, and that is associative.

Two sums with the same content are strictly equal. No sum is a truth value, and two lists with the
very same elements are strictly equal whatever these elements are, so that it does not matter
whether they lead back to the operands or to a cycle.
-/

namespace SharedValues.Value

open Store

/-! ### Contents -/

/-- What a value brings into a sum. -/
inductive Content where
  | number (n : Int)
  | bytes (bs : List UInt8)
  | text (s : String)
  | list (vs : List Value)
deriving DecidableEq

def content? (h : Store) : Value → Option Content
  | .none => Option.none
  | .bool b => some (.number (if b then 1 else 0))
  | .int n => some (.number n)
  | .bytes object => some (.bytes object.data)
  | .text object => some (.text object.data)
  | .list r => some (.list (h.elements r))

namespace Content

/-- Two contents of one sort put together. -/
def join? : Content → Content → Option Content
  | .number m, .number n => some (.number (m + n))
  | .bytes bs, .bytes cs => some (.bytes (bs ++ cs))
  | .text s, .text t => some (.text (s ++ t))
  | .list vs, .list ws => some (.list (vs ++ ws))
  | _, _ => Option.none

theorem join?_assoc (x y z : Content) :
    ((x.join? y).bind fun xy => xy.join? z) = (y.join? z).bind fun yz => x.join? yz := by
  cases x <;> cases y <;> cases z <;>
    simp only [join?, Option.bind_some, Option.bind_none, Int.add_assoc, List.append_assoc,
      String.append_assoc]

/-- The number of bytes, characters or elements. -/
def size? : Content → Option Nat
  | .number _ => Option.none
  | .bytes bs => some bs.length
  | .text s => some s.toList.length
  | .list vs => some vs.length

theorem size?_of_join? {x y z : Content} {m n : Nat} (hz : x.join? y = some z)
    (hm : x.size? = some m) (hn : y.size? = some n) : z.size? = some (m + n) := by
  cases x <;> cases y <;> cases hz <;> cases hm <;> cases hn <;> simp [size?]

/-- Contents that may be missing. -/
def sum? (x y : Option Content) : Option Content := x.bind fun x => y.bind fun y => x.join? y

theorem sum?_assoc (x y z : Option Content) : sum? (sum? x y) z = sum? x (sum? y z) := by
  cases x with
  | none => rfl
  | some x =>
    cases y with
    | none => rfl
    | some y =>
      cases z with
      | none => simp [sum?]
      | some z => exact join?_assoc x y z

end Content

open Content

variable {h g k : Store} {a b c v w s t : Value}

theorem content?_of_extends (hg : Extends h g) (hv : h.Covers v) : content? g v = content? h v := by
  cases v with
  | list r => rw [content?, content?, hg.elements r hv]
  | _ => rfl

theorem length_eq_ok_iff {n : Nat} :
    length h v = .ok n ↔ ∃ x, content? h v = some x ∧ x.size? = some n := by
  cases v <;> simp [length, content?, size?, Store.length, String.length_toList]

/-- Nothing needs to be known about elements that two lists share, cycles among them included. -/
theorem strictEq_of_elements_eq {r r' : ListRef} (helements : h.elements r = h.elements r') :
    strictEq h (.list r) (.list r') = true := by
  refine (Tree.agreeWithin_list_iff_forall₂ strictLeaf_refl).2 ?_
  rw [helements, List.forall₂_same]
  exact fun u _ => agreeWithin_nil_self strictLeaf_refl u

/-- Values with the same content are strictly equal, unless one of them is a truth value. -/
theorem strictEq_of_content?_eq (hv : v.kind ≠ .bool) (hw : w.kind ≠ .bool)
    (hcontent : content? h v = content? h w) : strictEq h v w = true := by
  rcases lists_or_leaf v w with ⟨r, r', rfl, rfl⟩ | hleaf
  · exact strictEq_of_elements_eq (by simpa [content?] using hcontent)
  · rw [strictEq, agreeWithin_leaf hleaf]
    cases v with
    | bool b => exact absurd rfl hv
    | list r =>
      cases w with
      | list r' => simp [list?] at hleaf
      | _ => cases hcontent
    | int m =>
      cases w with
      | bool b => exact absurd rfl hw
      | int n => simpa [content?, strictLeaf] using hcontent
      | _ => cases hcontent
    | bytes object =>
      cases w with
      | bytes object' => simpa [content?, strictLeaf] using hcontent
      | _ => cases hcontent
    | text object =>
      cases w with
      | text object' => simpa [content?, strictLeaf] using hcontent
      | _ => cases hcontent
    | none =>
      cases w with
      | none => rfl
      | _ => cases hcontent

/-! ### Sums and their contents -/

/-- A value that holds a content, made in a store that has grown for it. It is no truth value. -/
structure SumOf (h : Store) (x : Content) (s : Value) (g : Store) : Prop where
  grown : Extends h g
  covers : g.Covers s
  kind_ne : s.kind ≠ .bool
  content : content? g s = some x

theorem content?_of_numeric? {n : Int} (hv : v.numeric? = some n) :
    content? h v = some (.number n) := by
  cases v <;> cases hv <;> rfl

theorem sumOf_add (hsum : add h v w = .ok (s, g)) :
    ∃ x, sum? (content? h v) (content? h w) = some x ∧ SumOf h x s g := by
  cases add_eq_ok_iff.1 hsum with
  | numbers hm hn =>
    refine ⟨_, ?_, extends_refl h, trivial, by simp [kind], rfl⟩
    rw [content?_of_numeric? hm, content?_of_numeric? hn]
    rfl
  | bytes a b => exact ⟨_, rfl, extends_newBytes h _, trivial, by simp [newBytes, kind], rfl⟩
  | texts a b => exact ⟨_, rfl, extends_newText h _, trivial, by simp [newText, kind], rfl⟩
  | lists a b =>
    refine ⟨_, rfl, extends_newList h _, ?_, by simp [newList, kind], ?_⟩
    · simp [newList, Covers, Holds, Store.size]
    · exact congrArg (fun vs => some (Content.list vs)) (elements_newList_self h _)

/-- Two sums of one content, made one after the other. -/
theorem SumOf.strictEq {x : Content} (hs : SumOf h x s g) (ht : SumOf g x t k) :
    strictEq k s t = true := by
  refine strictEq_of_content?_eq hs.kind_ne ht.kind_ne ?_
  rw [content?_of_extends ht.grown hs.covers, hs.content, ht.content]

theorem length_add {m n : Nat} (hsum : add h v w = .ok (s, g)) (hm : length h v = .ok m)
    (hn : length h w = .ok n) : length g s = .ok (m + n) := by
  obtain ⟨x, hx, hm⟩ := length_eq_ok_iff.1 hm
  obtain ⟨y, hy, hn⟩ := length_eq_ok_iff.1 hn
  obtain ⟨z, hz, hs⟩ := sumOf_add hsum
  rw [hx, hy] at hz
  exact length_eq_ok_iff.2 ⟨z, hs.content, size?_of_join? hz hm hn⟩

/-! ### Three values -/

/-- Which two of three values are added first. -/
inductive Grouping where
  /-- `(a + b) + c` -/
  | left
  /-- `a + (b + c)` -/
  | right

/-- The sum of three values, in the store after it. -/
def addThree (h : Store) (a b c : Value) : Grouping → Except Fault (Value × Store)
  | .left => do
    let (sum, g) ← add h a b
    add g sum c
  | .right => do
    let (sum, g) ← add h b c
    add g a sum

theorem addThree_left_eq_ok_iff {sum : Value × Store} :
    addThree h a b c .left = .ok sum ↔ ∃ s g, add h a b = .ok (s, g) ∧ add g s c = .ok sum := by
  rw [addThree]
  rcases add h a b with fault | ⟨s, g⟩ <;> simp [bind, Except.bind]

theorem addThree_right_eq_ok_iff {sum : Value × Store} :
    addThree h a b c .right = .ok sum ↔ ∃ s g, add h b c = .ok (s, g) ∧ add g a s = .ok sum := by
  rw [addThree]
  rcases add h b c with fault | ⟨s, g⟩ <;> simp [bind, Except.bind]

theorem summand?_of_numeric? {n : Int} (hv : v.numeric? = some n) : v.summand? = some .number := by
  cases v <;> cases hv <;> rfl

theorem summand?_add (hsum : add h v w = .ok (s, g)) : s.summand? = v.summand? := by
  cases add_eq_ok_iff.1 hsum with
  | numbers hm _ => rw [summand?_of_numeric? hm, summand?]
  | _ => rfl

theorem exists_addThree_iff {grouping : Grouping} :
    (∃ sum, addThree h a b c grouping = .ok sum) ↔
      ∃ sort, a.summand? = some sort ∧ b.summand? = some sort ∧ c.summand? = some sort := by
  constructor
  · rintro ⟨sum, hsum⟩
    cases grouping with
    | left =>
      obtain ⟨s, g, hs, ht⟩ := addThree_left_eq_ok_iff.1 hsum
      obtain ⟨sort, ha, hb⟩ := exists_add_eq_ok_iff.1 ⟨_, hs⟩
      obtain ⟨sort', hs', hc⟩ := exists_add_eq_ok_iff.1 ⟨_, ht⟩
      rw [summand?_add hs, ha] at hs'
      cases hs'
      exact ⟨sort, ha, hb, hc⟩
    | right =>
      obtain ⟨s, g, hs, ht⟩ := addThree_right_eq_ok_iff.1 hsum
      obtain ⟨sort, hb, hc⟩ := exists_add_eq_ok_iff.1 ⟨_, hs⟩
      obtain ⟨sort', ha, hs'⟩ := exists_add_eq_ok_iff.1 ⟨_, ht⟩
      rw [summand?_add hs, hb] at hs'
      cases hs'
      exact ⟨sort, ha, hb, hc⟩
  · rintro ⟨sort, ha, hb, hc⟩
    cases grouping with
    | left =>
      obtain ⟨⟨s, g⟩, hs⟩ := exists_add_eq_ok_iff.2 ⟨sort, ha, hb⟩
      obtain ⟨sum, ht⟩ := exists_add_eq_ok_iff.2 ⟨sort, (summand?_add hs).trans ha, hc⟩
      exact ⟨sum, addThree_left_eq_ok_iff.2 ⟨s, g, hs, ht⟩⟩
    | right =>
      obtain ⟨⟨s, g⟩, hs⟩ := exists_add_eq_ok_iff.2 ⟨sort, hb, hc⟩
      obtain ⟨sum, ht⟩ := exists_add_eq_ok_iff.2 ⟨sort, ha, (summand?_add hs).trans hb⟩
      exact ⟨sum, addThree_right_eq_ok_iff.2 ⟨s, g, hs, ht⟩⟩

/-- What three values bring into their sum. -/
def contents? (h : Store) (a b c : Value) : Option Content :=
  sum? (content? h a) (sum? (content? h b) (content? h c))

theorem contents?_of_extends (hg : Extends h g) (ha : h.Covers a) (hb : h.Covers b)
    (hc : h.Covers c) : contents? g a b c = contents? h a b c := by
  rw [contents?, content?_of_extends hg ha, content?_of_extends hg hb, content?_of_extends hg hc,
    contents?]

/-- The third operand is read after the first sum has been made, and still has its content. -/
theorem sumOf_addThree {grouping : Grouping} (ha : h.Covers a) (hc : h.Covers c)
    (ht : addThree h a b c grouping = .ok (t, k)) :
    ∃ x, contents? h a b c = some x ∧ SumOf h x t k := by
  cases grouping with
  | left =>
    obtain ⟨s, g, hs, ht⟩ := addThree_left_eq_ok_iff.1 ht
    obtain ⟨xy, hxy, hab⟩ := sumOf_add hs
    obtain ⟨x, hx, habc⟩ := sumOf_add ht
    rw [hab.content, ← hxy, content?_of_extends hab.grown hc, sum?_assoc] at hx
    exact ⟨x, hx, hab.grown.trans habc.grown, habc.covers, habc.kind_ne, habc.content⟩
  | right =>
    obtain ⟨s, g, hs, ht⟩ := addThree_right_eq_ok_iff.1 ht
    obtain ⟨yz, hyz, hbc⟩ := sumOf_add hs
    obtain ⟨x, hx, habc⟩ := sumOf_add ht
    rw [hbc.content, ← hyz, content?_of_extends hbc.grown ha] at hx
    exact ⟨x, hx, hbc.grown.trans habc.grown, habc.covers, habc.kind_ne, habc.content⟩

/-- However three values have been added, they can be added again in either way, and the second sum
is strictly equal to the first. -/
theorem exists_addThree_strictEq {grouping : Grouping} (ha : h.Covers a) (hb : h.Covers b)
    (hc : h.Covers c) (ht : addThree h a b c grouping = .ok (t, g)) (grouping' : Grouping) :
    ∃ t' g', addThree g a b c grouping' = .ok (t', g') ∧ strictEq g' t t' = true := by
  obtain ⟨x, hx, hfirst⟩ := sumOf_addThree ha hc ht
  obtain ⟨⟨t', g'⟩, ht'⟩ : ∃ sum, addThree g a b c grouping' = .ok sum :=
    exists_addThree_iff.2 (exists_addThree_iff.1 ⟨_, ht⟩)
  -- The operands have in the grown store what they had before, so both sums hold one content.
  have hsize := hfirst.grown.size_le
  obtain ⟨x', hx', hsecond⟩ := sumOf_addThree (ha.of_size_le hsize) (hc.of_size_le hsize) ht'
  rw [contents?_of_extends hfirst.grown ha hb hc, hx] at hx'
  cases hx'
  exact ⟨t', g', ht', hfirst.strictEq hsecond⟩

theorem exists_length_of_summand? {sort : Summand} (hsort : sort ≠ .number)
    (hv : v.summand? = some sort) : ∃ n, length h v = .ok n := by
  cases v with
  | bytes | text | list => exact ⟨_, rfl⟩
  | _ => simp_all [summand?]

/-- Sums are associative. Three values of a store can be added in either way exactly if all of them
are numbers, byte strings, texts or lists, truth values counting as numbers. The two sums, made one
after the other in either order, are strictly equal in the store that holds both. The length of a
sum of sequences is the sum of their lengths, where the length of a text counts its characters. -/
theorem sums_assoc (ha : h.Covers a) (hb : h.Covers b) (hc : h.Covers c) :
    ((∃ sum, addThree h a b c .left = .ok sum) ↔ ∃ sum, addThree h a b c .right = .ok sum) ∧
    ((∃ sum, addThree h a b c .left = .ok sum) ↔
      ∃ sort, a.summand? = some sort ∧ b.summand? = some sort ∧ c.summand? = some sort) ∧
    (∀ t g, addThree h a b c .left = .ok (t, g) →
      ∃ t' g', addThree g a b c .right = .ok (t', g') ∧ strictEq g' t t' = true) ∧
    (∀ t g, addThree h a b c .right = .ok (t, g) →
      ∃ t' g', addThree g a b c .left = .ok (t', g') ∧ strictEq g' t t' = true) ∧
    (∀ sort, sort ≠ .number → a.summand? = some sort → b.summand? = some sort →
      ∃ s g m n, add h a b = .ok (s, g) ∧ length h a = .ok m ∧ length h b = .ok n ∧
        length g s = .ok (m + n)) ∧
    ∀ object, length h (.text object) = .ok object.data.toList.length := by
  refine ⟨exists_addThree_iff.trans exists_addThree_iff.symm, exists_addThree_iff,
    fun t g ht => exists_addThree_strictEq ha hb hc ht .right,
    fun t g ht => exists_addThree_strictEq ha hb hc ht .left, ?_, fun object => ?_⟩
  · intro sort hsort hasort hbsort
    obtain ⟨⟨s, g⟩, hs⟩ := exists_add_eq_ok_iff.2 ⟨sort, hasort, hbsort⟩
    obtain ⟨m, hm⟩ := exists_length_of_summand? hsort hasort
    obtain ⟨n, hn⟩ := exists_length_of_summand? hsort hbsort
    exact ⟨s, g, m, n, hs, hm, hn, length_add hs hm hn⟩
  · rw [length, String.length_toList]

/-- A list that holds itself, added to one of a ring of two and to itself again. -/
theorem sums_assoc_rings :
    rings.Covers (.list ⟨0⟩) ∧ rings.Covers (.list ⟨2⟩) ∧
      (∃ t g t' g', addThree rings (.list ⟨2⟩) (.list ⟨0⟩) (.list ⟨2⟩) .left = .ok (t, g) ∧
        addThree g (.list ⟨2⟩) (.list ⟨0⟩) (.list ⟨2⟩) .right = .ok (t', g') ∧
        t.isSame t' = false ∧ strictEq g' t t' = true) ∧
      ∃ s g m n, add rings (.list ⟨2⟩) (.list ⟨0⟩) = .ok (s, g) ∧
        length rings (.list ⟨2⟩) = .ok m ∧ length rings (.list ⟨0⟩) = .ok n ∧
        length g s = .ok (m + n) := by
  have hring : rings.Covers (.list ⟨0⟩) := by decide
  have hself : rings.Covers (.list ⟨2⟩) := by decide
  obtain ⟨-, -, hequal, -, hlength, -⟩ := sums_assoc hself hring hself
  obtain ⟨t', g', hsum, hstrict⟩ := hequal _ _ rfl
  refine ⟨hring, hself, ⟨_, _, t', g', rfl, hsum, ?_, hstrict⟩, hlength .list (by decide) rfl rfl⟩
  cases hsum
  decide

end SharedValues.Value
