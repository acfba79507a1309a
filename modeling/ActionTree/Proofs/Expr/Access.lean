/-
# Access by name, by place and by text

`a.b` and `a['b']` are two nodes of the tree, of which the second has one child more. They
have the same value all the same, or fail in the same way (`Expr.evalAt_member`): the literal
has no error of its own, and it is too deep only where the object in front of it is, which is
evaluated first. So members can be spelled as indexes throughout an expression
(`Expr.indexed`).

`a[7]` and `a['7']` are the same for lists and objects: the text of a number is read back as
this number, and a number looks up a field by its text. For texts they are not, since only a
number finds a character.

Key definitions: `Expr.indexed`, `Expr.hasMember`.
Key theorems: `Expr.evalAt_member`, `Expr.member_as_index`, `Value.property?_digitsText`,
`Expr.index_by_text`.
-/
import ActionTree.Expr.Eval
import ActionTree.Proofs.Decimal

namespace ActionTree

/-! ### Members as indexes -/

namespace Expr

variable {context : Context}

/-- An expression with each member spelled as an index by a literal. -/
def indexed : Expr → Expr
  | member object property => index object.indexed (str property)
  | index object position => index object.indexed position.indexed
  | unary op operand => unary op operand.indexed
  | binary op left right => binary op left.indexed right.indexed
  | ternary condition consequent alternate =>
    ternary condition.indexed consequent.indexed alternate.indexed
  | null => null
  | bool value => bool value
  | num value => num value
  | str value => str value
  | ident name => ident name

/-- Whether a member is left somewhere in an expression. -/
def hasMember : Expr → Bool
  | null | bool _ | num _ | str _ | ident _ => false
  | member _ _ => true
  | index object position => object.hasMember || position.hasMember
  | unary _ operand => operand.hasMember
  | binary _ left right => left.hasMember || right.hasMember
  | ternary condition consequent alternate =>
    condition.hasMember || consequent.hasMember || alternate.hasMember

theorem hasMember_indexed (e : Expr) : e.indexed.hasMember = false := by
  induction e with
  | null | bool | num | str | ident => rfl
  | member object _ ih => rw [indexed, hasMember, ih, hasMember, Bool.or_self]
  | unary _ operand ih => rw [indexed, hasMember, ih]
  | index object position ih ih' | binary _ object position ih ih' =>
    rw [indexed, hasMember, ih, ih', Bool.or_self]
  | ternary condition consequent alternate ih ih' ih'' =>
    rw [indexed, hasMember, ih, ih', ih'', Bool.or_self, Bool.or_self]

theorem height_pos (e : Expr) : 1 ≤ e.height := by
  cases e <;> simp [height]

/-- The literal is never the highest child. -/
theorem height_indexed (e : Expr) : e.indexed.height = e.height := by
  induction e with
  | null | bool | num | str | ident => rfl
  | member object _ ih => rw [indexed, height, height, height, ih, Nat.max_eq_left object.height_pos]
  | unary _ operand ih => rw [indexed, height, height, ih]
  | index object position ih ih' | binary _ object position ih ih' =>
    rw [indexed, height, height, ih, ih']
  | ternary condition consequent alternate ih ih' ih'' =>
    rw [indexed, height, height, ih, ih', ih'']

/-- Beyond the bound there is no value. -/
theorem evalAt_of_maxHeight_le (e : Expr) {depth : Nat} (h : maxHeight ≤ depth) :
    e.evalAt context depth = .error (.tooDeep maxHeight) := by
  rw [evalAt.eq_def, if_pos h]

/-- **A member is an index by a literal.** -/
theorem evalAt_member (object : Expr) (property : String) (depth : Nat) :
    (member object property).evalAt context depth =
      (index object (str property)).evalAt context depth := by
  by_cases h : maxHeight ≤ depth
  · rw [evalAt_of_maxHeight_le _ h, evalAt_of_maxHeight_le _ h]
  · rw [evalAt, evalAt, if_neg h, if_neg h]
    by_cases h' : maxHeight ≤ depth + 1
    · simp only [evalAt_of_maxHeight_le object h']
      rfl
    · have hliteral : (str property).evalAt context (depth + 1) = .ok (.str property) := by
        rw [evalAt, if_neg h']
      simp only [hliteral]
      -- By a text, each kind of value is asked for the property of this name.
      refine bind_congr fun value => ?_
      cases value <;> rfl

theorem evalAt_indexed (e : Expr) (depth : Nat) :
    e.indexed.evalAt context depth = e.evalAt context depth := by
  induction e generalizing depth with
  | null | bool | num | str | ident => rfl
  | member object property ih =>
    rw [evalAt_member, indexed]
    simp only [evalAt, ih]
  | unary _ operand ih => rw [indexed, evalAt, evalAt, ih]
  | index object position ih ih' | binary _ object position ih ih' =>
    rw [indexed, evalAt, evalAt]
    simp only [ih, ih']
  | ternary condition consequent alternate ih ih' ih'' =>
    rw [indexed, evalAt, evalAt]
    simp only [ih, ih', ih'']

/-- **Members are indexes throughout an expression.** When every member is spelled as an index
by a literal, none is left, the expression is as high as before, and in every context and at
every depth it has the same value or fails with the same error. -/
theorem member_as_index (e : Expr) :
    e.indexed.hasMember = false ∧ e.indexed.height = e.height ∧
    (∀ context depth, e.indexed.evalAt context depth = e.evalAt context depth) ∧
    ∀ context, e.indexed.eval context = e.eval context :=
  ⟨hasMember_indexed e, height_indexed e, fun _ depth => evalAt_indexed e depth,
    fun _ => evalAt_indexed e 0⟩

end Expr

/-! ### Places and their texts -/

namespace Decimal

theorem digitsText_ne_length (n : Nat) : digitsText n ≠ "length" := by
  intro h
  have hl : 'l' ∈ Nat.toDigits 10 n := by
    rw [← String.toList_ofList (l := Nat.toDigits 10 n)]
    show 'l' ∈ (digitsText n).toList
    rw [h]
    decide
  exact absurd (Nat.isDigit_of_mem_toDigits (by decide) (by decide) hl) (by decide)

end Decimal

namespace Value

variable {i : Nat}

theorem place?_ofNat (hi : i < 0x20000000000000) : place? (Float.ofNat i) = some i := by
  rw [place?, Binary64.integer?_ofNat hi]
  exact if_pos (Int.natCast_nonneg i)

theorem element_ofNat (hi : i < 0x20000000000000) (items : List Value) :
    element items (Float.ofNat i) = items[i]?.getD null := by
  rw [element, place?_ofNat hi]
  rfl

/-- A list has its items by the texts of their places. -/
theorem property?_digitsText (hi : i < 0x20000000000000) (items : List Value) :
    (list items).property? (Decimal.digitsText i) = .ok (items[i]?.getD null) := by
  rw [property?, if_neg (Decimal.digitsText_ne_length i), Decimal.ofText?_digitsText]
  exact congrArg Except.ok (element_ofNat hi items)

/-- An object looks a number up by its text. -/
theorem index?_ofNat_obj (hi : i < 0x20000000000000) (fields : Fields Value) :
    (obj fields).index? (num (Float.ofNat i)) =
      .ok ((fields.get? (Decimal.digitsText i)).getD null) := by
  rw [index?, display, numberText_ofNat hi]
  · rfl
  · simp
  · simp

/-- A text has the characters at its places, and null behind its end. -/
theorem character_ofNat (hi : i < 0x20000000000000) (text : String) :
    character text (Float.ofNat i) =
      (text.toList[i]?.map fun c => str (String.singleton c)).getD null := by
  rw [character, place?_ofNat hi, Option.bind_some]
  cases text.toList[i]? <;> rfl

/-- A text has no properties but its length. -/
theorem property?_digitsText_str (i : Nat) (text : String) :
    (str text).property? (Decimal.digitsText i) = .ok null := by
  rw [property?, if_neg (Decimal.digitsText_ne_length i)]

end Value

namespace Expr

variable {context : Context} {e position : Expr} {v p : Value} {depth i : Nat}

/-- What has a value keeps the bound. -/
theorem not_maxHeight_le (he : e.evalAt context depth = .ok v) : ¬ maxHeight ≤ depth := by
  intro h
  rw [evalAt_of_maxHeight_le e h] at he
  cases he

/-- An index whose children have values is looked up. -/
theorem evalAt_index (he : e.evalAt context (depth + 1) = .ok v)
    (hp : position.evalAt context (depth + 1) = .ok p) :
    (index e position).evalAt context depth = v.index? p := by
  have hdepth : ¬ maxHeight ≤ depth := fun h => not_maxHeight_le he (Nat.le_succ_of_le h)
  rw [evalAt, if_neg hdepth, he, hp]
  rfl

/-- **An index by a number against the index by its text.** For lists and objects they are the
same: the item at that place or the field of that name, and null if there is none. For a text
the number finds the character at that place, the number's text finds nothing; so they are the
same only behind the end of the text. -/
theorem index_by_text (he : e.evalAt context (depth + 1) = .ok v) (hi : i < 2 ^ 53) :
    let byNumber := (index e (num (Float.ofNat i))).evalAt context depth
    let byText := (index e (str (Decimal.digitsText i))).evalAt context depth
    (Value.num (Float.ofNat i)).display = Decimal.digitsText i ∧
    (∀ items, v = .list items →
      byNumber = .ok (items[i]?.getD .null) ∧ byText = byNumber) ∧
    (∀ fields, v = .obj fields →
      byNumber = .ok ((Fields.get? fields (Decimal.digitsText i)).getD .null) ∧
      byText = byNumber) ∧
    ∀ text, v = .str text →
      byNumber = .ok ((text.toList[i]?.map fun c => .str (String.singleton c)).getD .null) ∧
      byText = .ok .null ∧ (byText = byNumber ↔ text.length ≤ i) := by
  intro byNumber byText
  have hi' : i < 0x20000000000000 := by omega
  have hdepth : ¬ maxHeight ≤ depth + 1 := not_maxHeight_le he
  have hnumber : byNumber = v.index? (.num (Float.ofNat i)) :=
    evalAt_index he (by rw [evalAt, if_neg hdepth])
  have htext : byText = v.index? (.str (Decimal.digitsText i)) :=
    evalAt_index he (by rw [evalAt, if_neg hdepth])
  rw [hnumber, htext]
  refine ⟨Value.numberText_ofNat hi', ?_, ?_, ?_⟩
  · rintro items rfl
    have hitem : (Value.list items).index? (.num (Float.ofNat i)) = .ok (items[i]?.getD .null) :=
      congrArg Except.ok (Value.element_ofNat hi' items)
    exact ⟨hitem, (Value.property?_digitsText hi' items).trans hitem.symm⟩
  · rintro fields rfl
    have hfield := Value.index?_ofNat_obj hi' fields
    exact ⟨hfield, hfield.symm⟩
  · rintro text rfl
    have hcharacter : (Value.str text).index? (.num (Float.ofNat i)) =
        .ok ((text.toList[i]?.map fun c => .str (String.singleton c)).getD .null) :=
      congrArg Except.ok (Value.character_ofNat hi' text)
    have hnone : (Value.str text).index? (.str (Decimal.digitsText i)) = .ok .null :=
      Value.property?_digitsText_str i text
    refine ⟨hcharacter, hnone, ?_⟩
    rw [hnone, hcharacter, ← String.length_toList, ← List.getElem?_eq_none_iff]
    cases text.toList[i]? <;> simp

/-- The second item of a list, a field named `1`, and the second character of a text. -/
theorem index_by_text_second :
    let context : Context := ⟨[("l", .arr [.null, .bool true]), ("o", .obj [("1", .bool true)])]⟩
    (index (ident "l") (num (Float.ofNat 1))).eval context = .ok (.bool true) ∧
    (index (ident "l") (str "1")).eval context = .ok (.bool true) ∧
    (index (ident "o") (num (Float.ofNat 1))).eval context = .ok (.bool true) ∧
    (index (ident "o") (str "1")).eval context = .ok (.bool true) ∧
    (index (str "abc") (num (Float.ofNat 1))).eval context = .ok (.str "b") ∧
    (index (str "abc") (str "1")).eval context = .ok .null := by
  intro context
  have hl : (ident "l").evalAt context 1 = .ok (.list [.null, .bool true]) := rfl
  have ho : (ident "o").evalAt context 1 = .ok (.obj [("1", .bool true)]) := rfl
  have hs : (str "abc").evalAt context 1 = .ok (.str "abc") := rfl
  have hone : 1 < 2 ^ 53 := by decide
  obtain ⟨hlist, hlist'⟩ := (index_by_text hl hone).2.1 _ rfl
  obtain ⟨hobj, hobj'⟩ := (index_by_text ho hone).2.2.1 _ rfl
  obtain ⟨htext, htext', -⟩ := (index_by_text hs hone).2.2.2 _ rfl
  exact ⟨hlist, hlist'.trans hlist, hobj, hobj'.trans hobj, htext, htext'⟩

/-- For a text the two differ: `'abc'[0]` is `'a'` and `'abc'['0']` is null. -/
theorem not_index_by_text : ¬ ∀ (context : Context) (e : Expr) (v : Value),
    e.evalAt context 1 = .ok v →
    ((∃ items, v = .list items) ∨ (∃ fields, v = .obj fields) ∨ ∃ text, v = .str text) →
    ∀ i < 2 ^ 53, (index e (num (Float.ofNat i))).eval context =
      (index e (str (Decimal.digitsText i))).eval context := by
  intro h
  have hsame := h .empty (str "abc") (.str "abc") rfl (.inr (.inr ⟨"abc", rfl⟩)) 0 (by decide)
  have hnumber : (index (str "abc") (num (Float.ofNat 0))).eval .empty = .ok (.str "a") := rfl
  have htext : (index (str "abc") (str (Decimal.digitsText 0))).eval .empty = .ok .null := rfl
  rw [hnumber, htext] at hsame
  cases hsame

end Expr
end ActionTree
