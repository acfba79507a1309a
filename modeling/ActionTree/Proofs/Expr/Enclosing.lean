/-
# Texts in parentheses

A phrase is also one of each looser sort, and a text in parentheses is of the tightest. So
texts of expressions can be put together with any operator, if each is put in parentheses
first: the operator then joins the expressions of the texts, however they look inside
(`Expr.DerivedFrom.conjoin`, `Expr.DerivedFrom.choose`). The text as a whole is read so
unless it goes beyond a limit (`Expr.parse_of_not_overLimit`), and as a condition it has the
outcome that the parts have one after the other (`Expr.holds_conjoin`, `Expr.holds_choose`).

Key definitions: `Grammar.Phrase.looser`, `Expr.conjoin`, `Expr.choose`, `Expr.OverLimit`,
`Expr.verdict`.
Key theorems: `Grammar.Derives.of_primary`, `Grammar.Derives.conditional`,
`Expr.DerivedFrom.enclosed`, `Expr.parse_eq_ok_iff`, `Expr.holds_conjoin`,
`Expr.holds_choose`.
-/
import ActionTree.Proofs.Expr.Bounds
import ActionTree.Proofs.Expr.Reading

namespace ActionTree
namespace Grammar

/-! ### From tight phrases to loose ones -/

/-- The sort of phrases that is one step looser. -/
def Phrase.looser : Phrase → Phrase
  | primary => accessed
  | accessed => prefixed
  | prefixed => product
  | product => sum
  | sum => comparison
  | comparison => equality
  | equality => conjunction
  | conjunction => disjunction
  | disjunction | conditional => conditional

/-- Every operator joins the parts of phrases of some sort. -/
theorem exists_chain (op : BinaryOp) :
    ∃ (p : Phrase) (ops : List BinaryOp) (q : Phrase), p.chain? = some (ops, q) ∧ op ∈ ops := by
  cases op with
  | or => exact ⟨.disjunction, _, _, rfl, by decide⟩
  | and => exact ⟨.conjunction, _, _, rfl, by decide⟩
  | strictEq | strictNe | eq | ne => exact ⟨.equality, _, _, rfl, by decide⟩
  | le | ge | lt | gt => exact ⟨.comparison, _, _, rfl, by decide⟩
  | add | sub => exact ⟨.sum, _, _, rfl, by decide⟩
  | mul | div | rem => exact ⟨.product, _, _, rfl, by decide⟩

namespace Derives

variable {α : Type} {word : Token → List α → Prop} {gap : List α → Prop} {p : Phrase}
  {t : List α} {e : Expr}

theorem looser (h : Derives word gap p t e) : Derives word gap p.looser t e := by
  cases p with
  | primary => exact .object h
  | accessed => exact .operand h
  | prefixed | product | sum | comparison | equality | conjunction => exact .part rfl h
  | disjunction => exact .plain h
  | conditional => exact h

theorem loosen (h : Derives word gap p t e) (steps : Nat) :
    Derives word gap (Nat.repeat Phrase.looser steps p) t e := by
  induction steps with
  | zero => exact h
  | succ steps ih => exact ih.looser

/-- Every phrase is a conditional. -/
theorem conditional (h : Derives word gap p t e) : Derives word gap .conditional t e := by
  have hloose := h.loosen 9
  cases p <;> exact hloose

/-- A primary phrase can stand in place of any phrase. -/
theorem of_primary (h : Derives word gap .primary t e) (p : Phrase) : Derives word gap p t e := by
  cases p with
  | primary => exact h
  | accessed => exact h.loosen 1
  | prefixed => exact h.loosen 2
  | product => exact h.loosen 3
  | sum => exact h.loosen 4
  | comparison => exact h.loosen 5
  | equality => exact h.loosen 6
  | conjunction => exact h.loosen 7
  | disjunction => exact h.loosen 8
  | conditional => exact h.loosen 9

/-- Primary phrases can be joined by every operator. -/
theorem binary {g w g' t' : List α} {op : BinaryOp} {left right : Expr}
    (h : Derives word gap .primary t left) (hg : gap g) (hw : word (.op op) w) (hg' : gap g')
    (h' : Derives word gap .primary t' right) :
    Derives word gap .conditional (t ++ g ++ w ++ g' ++ t') (.binary op left right) := by
  obtain ⟨p, ops, q, hp, hop⟩ := exists_chain op
  exact (Derives.joined hp (h.of_primary p) hg hop hw hg' (h'.of_primary q)).conditional

end Derives

theorem blanks_nil : Blanks [] :=
  fun _ h => absurd h List.not_mem_nil

theorem blanks_space : Blanks [' '] := by
  intro c hc
  rw [List.mem_singleton.1 hc]
  rfl

end Grammar

namespace Expr

open Grammar

/-! ### Texts put together -/

/-- The text that holds if two others do. -/
def conjoin (a b : String) : String :=
  "(" ++ a ++ ") && (" ++ b ++ ")"

/-- The text that goes by one of two others, as a first one says. -/
def choose (c a b : String) : String :=
  "(" ++ c ++ ") ? (" ++ a ++ ") : (" ++ b ++ ")"

theorem derivedFrom_of_conditional {source : String} {e : Expr}
    (h : OfChars .conditional source.toList e) : DerivedFrom source e :=
  ⟨[], source.toList, [], by simp, blanks_nil, h, blanks_nil⟩

namespace DerivedFrom

variable {a b c : String} {ea eb ec : Expr}

/-- **A text in parentheses is a primary phrase.** -/
theorem enclosed (h : DerivedFrom a ea) : OfChars .primary ('(' :: (a.toList ++ [')'])) ea := by
  obtain ⟨before, text, after, ha, hb, ht, hf⟩ := h
  have hparens := Derives.parens .openParen hb ht hf .closeParen
  rw [ha]
  simpa using hparens

theorem conjoin (ha : DerivedFrom a ea) (hb : DerivedFrom b eb) :
    DerivedFrom (Expr.conjoin a b) (.binary .and ea eb) := by
  have hand : Lexeme (.op .and) BinaryOp.and.symbol.toList := .op
  have h := ha.enclosed.binary blanks_space hand blanks_space hb.enclosed
  refine derivedFrom_of_conditional ?_
  simpa [Expr.conjoin, BinaryOp.symbol] using h

theorem choose (hc : DerivedFrom c ec) (ha : DerivedFrom a ea) (hb : DerivedFrom b eb) :
    DerivedFrom (Expr.choose c a b) (.ternary ec ea eb) := by
  have h := Derives.ternary (hc.enclosed.of_primary _) blanks_space .question blanks_space
    (ha.enclosed.of_primary _) blanks_space .colon blanks_space (hb.enclosed.of_primary _)
  refine derivedFrom_of_conditional ?_
  simpa [Expr.choose] using h

end DerivedFrom

/-! ### Reading them -/

theorem parse_eq_ok_iff {source : String} {e : Expr} : parse source = .ok e ↔
    checkLimits source = .ok () ∧ DerivedFrom source e ∧ e.height ≤ maxHeight := by
  constructor
  · intro h
    cases hl : checkLimits source with
    | error error =>
      rw [parse, hl] at h
      cases h
    | ok =>
      refine ⟨rfl, ?_⟩
      by_cases hd : ∃ e', DerivedFrom source e'
      · obtain ⟨e', he'⟩ := hd
        rw [parse_of_derived hl he'] at h
        split at h
        · cases h
          exact ⟨he', ‹_›⟩
        · cases h
      · rw [parse_of_not_derived hl (not_exists.1 hd)] at h
        cases h
  · rintro ⟨hl, hd, hh⟩
    rw [parse_of_derived hl hd, if_pos hh]

/-- The parser refuses a text for its length or for its depth. -/
def OverLimit (source : String) : Prop :=
  ∃ limit, parse source = .error (.tooLong limit) ∨ parse source = .error (.tooDeep limit)

/-- A text with an expression is read unless it goes beyond a limit. -/
theorem parse_of_not_overLimit {source : String} {e : Expr} (h : ¬ OverLimit source)
    (hd : DerivedFrom source e) : parse source = .ok e := by
  have hlimits : checkLimits source = .ok () := by
    cases hl : checkLimits source with
    | ok => rfl
    | error error =>
      have hparse : parse source = .error error := by rw [parse, hl]; rfl
      unfold checkLimits at hl
      split at hl
      · cases hl
        exact absurd ⟨_, .inl hparse⟩ h
      · split at hl
        · cases hl
        · cases hl
          exact absurd ⟨_, .inr hparse⟩ h
  rw [parse_of_derived hlimits hd]
  split
  · rfl
  · rename_i hheight
    refine absurd ⟨maxHeight, .inr ?_⟩ h
    rw [parse_of_derived hlimits hd, if_neg hheight]

/-! ### Their outcome as conditions -/

variable {context : Context} {a b c whole : String} {ea eb ec : Expr}

/-- Whether a condition holds, or which text has no value and why. -/
def verdict (context : Context) (source : String) : Except (String × ExprError) Bool :=
  (holds context source).mapError (source, ·)

/-- Whether two conditions hold. The second is looked at only if the first does. -/
def verdictOfBoth (context : Context) (a b : String) : Except (String × ExprError) Bool := do
  if ← verdict context a then verdict context b else return false

/-- Whether the one of two conditions holds by which a first one says to go. -/
def verdictOfChoice (context : Context) (c a b : String) :
    Except (String × ExprError) Bool := do
  if ← verdict context c then verdict context a else verdict context b

theorem holds_of_parse_ok {e : Expr} {source : String} (h : parse source = .ok e)
    (context : Context) : holds context source = (e.value context).map Value.truthy := by
  rw [holds, evaluate_of_parse_ok h]
  rfl

/-- The right operand is looked at only if the left one holds. -/
theorem truthy_value_and (context : Context) (left right : Expr) :
    ((binary .and left right).value context).map Value.truthy =
      ((left.value context).map Value.truthy >>= fun result =>
        if result then (right.value context).map Value.truthy else .ok false) := by
  rw [value]
  cases left.value context with
  | error error => rfl
  | ok value =>
    show Except.map Value.truthy (if !value.truthy then .ok value else
      right.value context >>= fun other => .ok (if value.truthy then other else value)) =
        if value.truthy then (right.value context).map Value.truthy else .ok false
    cases hv : value.truthy with
    | false => exact congrArg Except.ok hv
    | true => cases right.value context <;> rfl

theorem truthy_value_ternary (context : Context) (condition consequent alternate : Expr) :
    ((ternary condition consequent alternate).value context).map Value.truthy =
      ((condition.value context).map Value.truthy >>= fun result =>
        if result then (consequent.value context).map Value.truthy
        else (alternate.value context).map Value.truthy) := by
  rw [value]
  cases condition.value context with
  | error error => rfl
  | ok value =>
    show Except.map Value.truthy (if value.truthy then consequent.value context
      else alternate.value context) = if value.truthy then _ else _
    cases value.truthy <;> rfl

/-- The text as a whole has the outcome that its parts have, and if there is none it is the
whole that has no value, for the reason that the part has none. -/
theorem verdict_of_holds {parts : Except (String × ExprError) Bool}
    (h : holds context whole = parts.mapError Prod.snd) :
    verdict context whole = parts.mapError fun fault => (whole, fault.2) := by
  rw [verdict, h]
  cases parts <;> rfl

theorem holds_conjoin (ha : parse a = .ok ea) (hb : parse b = .ok eb)
    (h : parse (conjoin a b) = .ok (.binary .and ea eb)) (context : Context) :
    holds context (conjoin a b) = (verdictOfBoth context a b).mapError Prod.snd := by
  calc holds context (conjoin a b)
      = ((binary .and ea eb).value context).map Value.truthy := holds_of_parse_ok h context
    _ = ((ea.value context).map Value.truthy >>= fun result =>
          if result then (eb.value context).map Value.truthy else .ok false) :=
        truthy_value_and context ea eb
    _ = (holds context a >>= fun result => if result then holds context b else .ok false) := by
        rw [holds_of_parse_ok ha, holds_of_parse_ok hb]
    _ = (verdictOfBoth context a b).mapError Prod.snd := by
        rw [verdictOfBoth, verdict, verdict]
        cases holds context a with
        | error error => rfl
        | ok result => cases result <;> cases holds context b <;> rfl

theorem holds_choose (hc : parse c = .ok ec) (ha : parse a = .ok ea) (hb : parse b = .ok eb)
    (h : parse (choose c a b) = .ok (.ternary ec ea eb)) (context : Context) :
    holds context (choose c a b) = (verdictOfChoice context c a b).mapError Prod.snd := by
  calc holds context (choose c a b)
      = ((ternary ec ea eb).value context).map Value.truthy := holds_of_parse_ok h context
    _ = ((ec.value context).map Value.truthy >>= fun result =>
          if result then (ea.value context).map Value.truthy
          else (eb.value context).map Value.truthy) := truthy_value_ternary context ec ea eb
    _ = (holds context c >>= fun result =>
          if result then holds context a else holds context b) := by
        rw [holds_of_parse_ok hc, holds_of_parse_ok ha, holds_of_parse_ok hb]
    _ = (verdictOfChoice context c a b).mapError Prod.snd := by
        rw [verdictOfChoice, verdict, verdict, verdict]
        cases holds context c with
        | error error => rfl
        | ok result => cases result <;> cases holds context a <;> cases holds context b <;> rfl

end Expr
end ActionTree
