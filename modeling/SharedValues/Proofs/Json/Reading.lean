import SharedValues.Proofs.Json.Scanning

/-!
# Documents are read back

The reader takes the tokens of a document, wherever a value is expected, as that document. It keeps
the arrays and objects around it on a stack of frames, so the statement is about any frames and any
tokens that follow. Together with the scanner: the written form of a document is read as the
document, up to controls in texts that come back by their code.
-/

namespace SharedValues.Json

/-- Induction on a document, with one hypothesis for each item and each member. -/
@[elab_as_elim]
theorem parts_induction {P : Json → Prop} (v : Json) (null : P .null) (bool : ∀ b, P (.bool b))
    (number : ∀ lexeme, P (.number lexeme)) (text : ∀ pieces, P (.text pieces))
    (array : ∀ items, (∀ v ∈ items, P v) → P (.array items))
    (object : ∀ members, (∀ m ∈ members, P m.2) → P (.object members)) : P v := by
  refine @Json.rec P (fun items => ∀ v ∈ items, P v) (fun members => ∀ m ∈ members, P m.2)
    (fun m => P m.2) null bool number text array object ?_ ?_ ?_ ?_ ?_ v
  · intro v hv
    exact absurd hv List.not_mem_nil
  · intro head tail hhead htail
    exact List.forall_mem_cons.2 ⟨hhead, htail⟩
  · intro m hm
    exact absurd hm List.not_mem_nil
  · intro head tail hhead htail
    exact List.forall_mem_cons.2 ⟨hhead, htail⟩
  · intro key v hv
    exact hv

/-- The tokens of the document are taken as the document, whatever is around it and after it. -/
def Accepted (v : Json) : Prop :=
  ∀ (frames : List Frame) (rest : List Token),
    acceptAll? (.value frames) (v.tokens ++ rest) = acceptAll? (.after v frames) rest

theorem exists_intercalate_cons (separator ts : List Token) (tss : List (List Token)) :
    ∃ rest, separator.intercalate (ts :: tss) = ts ++ rest := by
  cases tss with
  | nil => exact ⟨[], by rw [List.intercalate_singleton, List.append_nil]⟩
  | cons us tss => exact ⟨_, by rw [List.intercalate_cons_cons, List.append_assoc]⟩

/-! ### Arrays -/

/-- A token that begins a value does in a new array what it does after a comma. -/
theorem acceptAll?_item (v : Json) (frames : List Frame) (rest : List Token) :
    acceptAll? (.item frames) (v.tokens ++ rest) =
      acceptAll? (.value (.array [] :: frames)) (v.tokens ++ rest) := by
  cases v <;> simp [tokens, acceptAll?, accept?]

/-- From an item on up to the end of its array. -/
theorem acceptAll?_items {v : Json} {items : List Json} (hv : Accepted v)
    (hitems : ∀ u ∈ items, Accepted u) (done : List Json) (frames : List Frame)
    (rest : List Token) :
    acceptAll? (.value (.array done :: frames))
        ([.comma].intercalate (tokensOfItems (v :: items)) ++ .closeBracket :: rest) =
      acceptAll? (.after (.array (done.reverse ++ v :: items)) frames) rest := by
  induction items generalizing v done with
  | nil =>
    rw [tokensOfItems, tokensOfItems, List.intercalate_singleton, hv]
    simp [acceptAll?, accept?]
  | cons u items ih =>
    obtain ⟨hu, hrest⟩ := List.forall_mem_cons.1 hitems
    have hnext := ih hu hrest (v :: done)
    rw [tokensOfItems] at hnext
    rw [tokensOfItems, tokensOfItems, List.intercalate_cons_cons, List.append_assoc,
      List.append_assoc, hv]
    simpa [acceptAll?, accept?] using hnext

theorem accepted_array {items : List Json} (hitems : ∀ v ∈ items, Accepted v) :
    Accepted (.array items) := by
  intro frames rest
  cases items with
  | nil => simp [tokens, tokensOfItems, acceptAll?, accept?, beginValue?]
  | cons v items =>
    obtain ⟨hv, hrest⟩ := List.forall_mem_cons.1 hitems
    have hall := acceptAll?_items hv hrest [] frames rest
    obtain ⟨tail, htail⟩ := exists_intercalate_cons [.comma] v.tokens (tokensOfItems items)
    rw [tokensOfItems, htail, List.append_assoc, ← acceptAll?_item] at hall
    simpa [tokens, tokensOfItems, htail, acceptAll?, accept?, beginValue?] using hall

/-! ### Objects -/

theorem acceptAll?_member {v : Json} (hv : Accepted v) (key : List Piece)
    (done : List (List Piece × Json)) (frames : List Frame) (rest : List Token) :
    acceptAll? (.key done frames) (.text key :: .colon :: v.tokens ++ rest) =
      acceptAll? (.after v (.object done key :: frames)) rest :=
  hv (.object done key :: frames) rest

/-- From a member on up to the end of its object. -/
theorem acceptAll?_members {m : List Piece × Json} {members : List (List Piece × Json)}
    (hm : Accepted m.2) (hmembers : ∀ n ∈ members, Accepted n.2)
    (done : List (List Piece × Json)) (frames : List Frame) (rest : List Token) :
    acceptAll? (.key done frames)
        ([.comma].intercalate (tokensOfMembers (m :: members)) ++ .closeBrace :: rest) =
      acceptAll? (.after (.object (done.reverse ++ m :: members)) frames) rest := by
  induction members generalizing m done with
  | nil =>
    rw [tokensOfMembers, tokensOfMembers, List.intercalate_singleton, acceptAll?_member hm]
    simp [acceptAll?, accept?]
  | cons n members ih =>
    obtain ⟨hn, hrest⟩ := List.forall_mem_cons.1 hmembers
    have hnext := ih hn hrest (m :: done)
    rw [tokensOfMembers] at hnext
    rw [tokensOfMembers, tokensOfMembers, List.intercalate_cons_cons, List.append_assoc,
      List.append_assoc, acceptAll?_member hm]
    simpa [acceptAll?, accept?] using hnext

theorem accepted_object {members : List (List Piece × Json)}
    (hmembers : ∀ m ∈ members, Accepted m.2) : Accepted (.object members) := by
  intro frames rest
  cases members with
  | nil => simp [tokens, tokensOfMembers, acceptAll?, accept?, beginValue?]
  | cons m members =>
    obtain ⟨hm, hrest⟩ := List.forall_mem_cons.1 hmembers
    have hall := acceptAll?_members hm hrest [] frames rest
    obtain ⟨tail, htail⟩ := exists_intercalate_cons [.comma] (.text m.1 :: .colon :: m.2.tokens)
      (tokensOfMembers members)
    rw [tokensOfMembers, htail] at hall
    -- after the brace a key is taken as it is after a comma
    simpa [tokens, tokensOfMembers, htail, acceptAll?, accept?, beginValue?] using hall

theorem accepted (v : Json) : Accepted v := by
  induction v using parts_induction with
  | array items ih => exact accepted_array ih
  | object members ih => exact accepted_object ih
  | _ => exact fun frames rest => rfl

theorem ofTokens?_tokens (v : Json) : ofTokens? v.tokens = some v := by
  have hall := accepted v [] []
  rw [List.append_nil] at hall
  rw [ofTokens?, hall]
  rfl

/-- The written form of a document is read as the document, but for controls that come back by their
code. -/
theorem read?_write {v : Json} (hv : Legible v) : read? v.write = some v.asRead := by
  rw [read?, write, String.toList_ofList, scan?_layout hv]
  exact ofTokens?_tokens v.asRead

end SharedValues.Json
