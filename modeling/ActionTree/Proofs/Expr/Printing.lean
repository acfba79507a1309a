/-
# Printed expressions are read back

An expression can be printed without a thought about how tightly its operators bind, if
every operand is put in parentheses. What is printed is a row of tokens (`Expr.row`), and
the grammar derives the expression from this row (`Expr.derives_row`). Each token is then
spelled out, with blanks in between or not; a string becomes a literal, in which a backslash
stands in front of every backslash and of every quote that could end it (`Grammar.literal`).
The parser reads the expression back from each of the texts that come about so, as long as
they keep the limits.

Key definitions: `Grammar.literal`, `Expr.row`, `Expr.PrintedAs`, `Expr.Writable`.
Key theorems: `Grammar.lexeme_literal`, `Expr.derives_row`, `Expr.exists_printedAs`,
`Expr.parse_printed`.
-/
import ActionTree.Proofs.Expr.Enclosing
import ActionTree.Proofs.Expr.Nesting

namespace ActionTree
namespace Grammar

/-! ### Literals -/

/-- A text as it stands between quotes. All that is changed is that a backslash is put in
front of each backslash and of each such quote. -/
def escaped (quote : Char) : List Char → List Char
  | [] => []
  | c :: text =>
    if c = quote ∨ c = '\\' then '\\' :: c :: escaped quote text else c :: escaped quote text

/-- The literal of a string. -/
def literal (quote : Char) (s : String) : List Char :=
  quote :: (escaped quote s.toList ++ [quote])

theorem unescape_quote {quote : Char} (hq : Token.isQuote quote = true) :
    Token.unescape quote = quote := by
  have hquote : quote = '"' ∨ quote = '\'' := by simpa [Token.isQuote] using hq
  rcases hquote with rfl | rfl <;> rfl

theorem quoted_escaped {quote : Char} (hq : Token.isQuote quote = true) (text : List Char) :
    Quoted quote (escaped quote text) text := by
  induction text with
  | nil => exact .empty
  | cons c text ih =>
    rw [escaped]
    split
    · rename_i hc
      have hself : Token.unescape c = c := by
        rcases hc with rfl | rfl
        · exact unescape_quote hq
        · rfl
      have h := Quoted.escaped (c := c) ih
      rwa [hself] at h
    · rename_i hc
      exact .plain (fun he => hc (.inl he)) (fun he => hc (.inr he)) ih

/-- **A literal is one lexeme**, whatever characters the string has. -/
theorem lexeme_literal {quote : Char} (hq : Token.isQuote quote = true) (s : String) :
    Lexeme (.str s) (literal quote s) := by
  have h := Lexeme.str hq (quoted_escaped hq s.toList)
  rwa [String.ofList_toList] at h

/-! ### Spelling -/

/-- The ways to spell a token when it is printed: a string as its literal with either quote,
all else in every way in which it can be written. -/
def Spelled : Token → List Char → Prop
  | .str s, word => ∃ quote, Token.isQuote quote = true ∧ word = literal quote s
  | token, word => Lexeme token word

theorem Spelled.lexeme {token : Token} {word : List Char} (h : Spelled token word) :
    Lexeme token word := by
  cases token with
  | str s =>
    obtain ⟨quote, hq, rfl⟩ := h
    exact lexeme_literal hq s
  | _ => exact h

/-- The ways to print a row of tokens: each is spelled, and blanks may stand between. -/
inductive Printed : List Token → List Char → Prop where
  | one {token : Token} {word : List Char} : Spelled token word → Printed [token] word
  | cons {token : Token} {row : List Token} {word gap text : List Char} : Spelled token word →
      Blanks gap → Printed row text → Printed (token :: row) (word ++ gap ++ text)

theorem Printed.written {row : List Token} {text : List Char} (h : Printed row text) :
    Written row text := by
  induction h with
  | one hs => exact .one hs.lexeme
  | cons hs hg _ ih => exact .cons hs.lexeme hg ih

theorem Printed.append {row row' : List Token} {text gap text' : List Char}
    (h : Printed row text) (hg : Blanks gap) (h' : Printed row' text') :
    Printed (row ++ row') (text ++ gap ++ text') := by
  induction h with
  | one hs => exact .cons hs hg h'
  | cons hs hg₁ _ ih => simpa using Printed.cons hs hg₁ ih

end Grammar

/-! ### Rows -/

/-- The token of an operator in front of its operand. -/
def UnaryOp.token : UnaryOp → Token
  | not => .not
  | neg => .op .sub

/-- A row of tokens in parentheses. -/
def Token.enclose (row : List Token) : List Token :=
  .openParen :: (row ++ [.closeParen])

namespace Grammar.Printed

theorem enclose {row : List Token} {text : List Char} (h : Printed row text) :
    Printed (Token.enclose row) (['('] ++ [] ++ (text ++ [] ++ [')'])) :=
  .cons Lexeme.openParen blanks_nil (h.append blanks_nil (.one Lexeme.closeParen))

theorem binary (op : BinaryOp) : Printed [.op op] op.symbol.toList := by
  have h : Lexeme (.op op) op.symbol.toList := .op
  exact .one h

theorem unary (op : UnaryOp) : Printed [op.token] op.symbol.toList := by
  cases op with
  | not => exact .one Lexeme.not
  | neg => exact binary .sub

end Grammar.Printed

namespace Expr

open Grammar
open Token (enclose)

/-- The tokens of a printed expression. Every operand is put in parentheses. -/
def row : Expr → List Token
  | null => [.null]
  | bool b => [.bool b]
  | num x => [.num x]
  | str s => [.str s]
  | ident name => [.ident name]
  | member object property => enclose object.row ++ [.dot, .ident property]
  | index object position =>
    enclose object.row ++ .openBracket :: (enclose position.row ++ [.closeBracket])
  | unary op operand => op.token :: enclose operand.row
  | binary op left right => enclose left.row ++ .op op :: enclose right.row
  | ternary condition consequent alternate =>
    enclose condition.row ++ .question :: (enclose consequent.row ++ .colon ::
      enclose alternate.row)

theorem derives_enclose {row : List Token} {e : Expr} (h : OfTokens .conditional row e) :
    OfTokens .primary (enclose row) e := by
  have hparens : OfTokens .primary _ e := .parens rfl rfl h rfl rfl
  simpa [enclose] using hparens

/-- **The grammar derives an expression from its row.** -/
theorem derives_row (e : Expr) : OfTokens .conditional e.row e := by
  induction e with
  | null => exact (Derives.null rfl).conditional
  | bool => exact (Derives.bool rfl).conditional
  | num => exact (Derives.num rfl).conditional
  | str => exact (Derives.str rfl).conditional
  | ident => exact (Derives.ident rfl).conditional
  | member object property ih =>
    have hobject := (derives_enclose ih).of_primary .accessed
    have h : OfTokens .accessed _ (.member object property) := .member hobject rfl rfl rfl rfl
    simpa [row] using h.conditional
  | index object position ih ih' =>
    have hobject := (derives_enclose ih).of_primary .accessed
    have hposition := (derives_enclose ih').of_primary .conditional
    have h : OfTokens .accessed _ (.index object position) :=
      .index hobject rfl rfl rfl hposition rfl rfl
    simpa [row] using h.conditional
  | unary op operand ih =>
    have hoperand := (derives_enclose ih).of_primary .prefixed
    cases op with
    | not =>
      have h : OfTokens .prefixed _ (.unary .not operand) := .not rfl rfl hoperand
      simpa [row, UnaryOp.token] using h.conditional
    | neg =>
      have h : OfTokens .prefixed _ (.unary .neg operand) := .neg rfl rfl hoperand
      simpa [row, UnaryOp.token] using h.conditional
  | binary op left right ih ih' =>
    have h : OfTokens .conditional _ (.binary op left right) :=
      (derives_enclose ih).binary rfl rfl rfl (derives_enclose ih')
    simpa [row] using h
  | ternary condition consequent alternate ih ih' ih'' =>
    have hcondition := (derives_enclose ih).of_primary .disjunction
    have hconsequent := (derives_enclose ih').of_primary .conditional
    have halternate := (derives_enclose ih'').of_primary .conditional
    have h : OfTokens .conditional _ (.ternary condition consequent alternate) :=
      .ternary hcondition rfl rfl rfl hconsequent rfl rfl rfl halternate
    simpa [row] using h

/-! ### Texts -/

/-- The texts as which an expression can be printed. -/
def PrintedAs (e : Expr) (text : List Char) : Prop :=
  Printed e.row text

theorem PrintedAs.derivedFrom {e : Expr} {source : String} (h : e.PrintedAs source.toList) :
    DerivedFrom source e :=
  derivedFrom_of_conditional (e.derives_row.written h.written)

/-- A name that can be written. -/
def IsName (name : String) : Prop :=
  ∃ c rest, name.toList = c :: rest ∧ Token.isNameStart c = true ∧
    (∀ d ∈ rest, Token.isNameChar d = true) ∧ name.toList ∉ keywords

/-- The names of an expression are names, and each of its numbers is the value of a number
that can be written. Its strings are any. -/
def Writable : Expr → Prop
  | null | bool _ | str _ => True
  | num x => ∃ text, Grammar.Number text ∧ Decimal.ofText? text = some x
  | ident name => IsName name
  | member object property => object.Writable ∧ IsName property
  | index object position => object.Writable ∧ position.Writable
  | unary _ operand => operand.Writable
  | binary _ left right => left.Writable ∧ right.Writable
  | ternary condition consequent alternate =>
    condition.Writable ∧ consequent.Writable ∧ alternate.Writable

theorem IsName.lexeme {name : String} (h : IsName name) : Lexeme (.ident name) name.toList := by
  obtain ⟨c, rest, hname, hc, hr, hk⟩ := h
  have hl := Lexeme.ident hc hr (hname ▸ hk)
  rwa [← hname, String.ofList_toList] at hl

/-- What is writable can be printed. -/
theorem exists_printedAs {e : Expr} (h : e.Writable) : ∃ text, e.PrintedAs text := by
  induction e with
  | null => exact ⟨_, .one Lexeme.null⟩
  | bool b =>
    cases b with
    | false => exact ⟨_, .one Lexeme.boolFalse⟩
    | true => exact ⟨_, .one Lexeme.boolTrue⟩
  | num x =>
    obtain ⟨text, hn, hx⟩ := h
    exact ⟨text, .one (Lexeme.num hn hx)⟩
  | str s => exact ⟨literal '"' s, .one ⟨'"', rfl, rfl⟩⟩
  | ident name => exact ⟨name.toList, .one h.lexeme⟩
  | member object property ih =>
    obtain ⟨text, ht⟩ := ih h.1
    have hproperty : Printed [.dot, .ident property] _ :=
      .cons Lexeme.dot blanks_nil (.one h.2.lexeme)
    exact ⟨_, ht.enclose.append blanks_nil hproperty⟩
  | index object position ih ih' =>
    obtain ⟨text, ht⟩ := ih h.1
    obtain ⟨text', ht'⟩ := ih' h.2
    have hclose : Printed [.closeBracket] _ := .one Lexeme.closeBracket
    exact ⟨_, ht.enclose.append blanks_nil
      (.cons Lexeme.openBracket blanks_nil (ht'.enclose.append blanks_nil hclose))⟩
  | unary op operand ih =>
    obtain ⟨text, ht⟩ := ih h
    exact ⟨_, (Printed.unary op).append blanks_nil ht.enclose⟩
  | binary op left right ih ih' =>
    obtain ⟨text, ht⟩ := ih h.1
    obtain ⟨text', ht'⟩ := ih' h.2
    exact ⟨_, ht.enclose.append blanks_nil ((Printed.binary op).append blanks_nil ht'.enclose)⟩
  | ternary condition consequent alternate ih ih' ih'' =>
    obtain ⟨text, ht⟩ := ih h.1
    obtain ⟨text', ht'⟩ := ih' h.2.1
    obtain ⟨text'', ht''⟩ := ih'' h.2.2
    exact ⟨_, ht.enclose.append blanks_nil (.cons Lexeme.question blanks_nil
      (ht'.enclose.append blanks_nil (.cons Lexeme.colon blanks_nil ht''.enclose)))⟩

/-! ### Reading back -/

/-- **What is printed is read back.** An expression whose names and numbers can be written can
be printed, and the parser reads it back from every text as which it can be, if the text and
the expression keep the limits. Whatever characters a string has, its literal ends with the
quote behind it and not before: in front of any text it is taken off as this string and no
other, and for the nesting of that text it counts for nothing. -/
theorem parse_printed (e : Expr) (h : e.Writable) :
    (∃ text, e.PrintedAs text) ∧
    (∀ source, e.PrintedAs source.toList → checkLimits source = .ok () → e.height ≤ maxHeight →
      parse source = .ok e) ∧
    ∀ quote s, Token.isQuote quote = true → ∀ rest,
      Token.scan? (literal quote s ++ rest) = some (.str s, rest) ∧
      ∀ limit brackets questions,
        Nesting.within limit .outside brackets questions (literal quote s ++ rest) =
          Nesting.within limit .outside brackets questions rest := by
  refine ⟨exists_printedAs h, fun source hp hl hheight => ?_, fun quote s hq rest => ?_⟩
  · rw [parse_of_derived hl hp.derivedFrom, if_pos hheight]
  · refine ⟨(lexeme_literal hq s).scan?_append trivial, fun limit brackets questions => ?_⟩
    exact Nesting.skipped_string hq (quoted_escaped hq s.toList) limit brackets questions rest

/-- A string of characters that mean something outside of strings. -/
theorem parse_printed_signs :
    let e := binary .add (ident "a") (str "'\"\\](?\n")
    let source := "(a) + ('\\'\"\\\\](?\n')"
    e.Writable ∧ e.PrintedAs source.toList ∧ checkLimits source = .ok () ∧
      e.height ≤ maxHeight ∧ parse source = .ok e := by
  intro e source
  have htext : source.toList = ['(', 'a', ')', ' ', '+', ' ', '(', '\'', '\\', '\'', '"', '\\',
      '\\', ']', '(', '?', '\n', '\'', ')'] := by
    simp [source]
  have hname : IsName "a" := ⟨'a', [], rfl, rfl, by simp, by decide⟩
  have hwritable : e.Writable := ⟨hname, trivial⟩
  have ha : Printed [.ident "a"] ['a'] := .one hname.lexeme
  have hs : Printed [.str "'\"\\](?\n"] (literal '\'' "'\"\\](?\n") :=
    .one ⟨'\'', rfl, rfl⟩
  have hprinted : e.PrintedAs source.toList := by
    rw [htext]
    exact ha.enclose.append blanks_space ((Printed.binary .add).append blanks_space hs.enclose)
  have hlimits : checkLimits source = .ok () := by
    rw [checkLimits, if_neg (by decide), htext]
    rfl
  exact ⟨hwritable, hprinted, hlimits, by decide,
    (parse_printed e hwritable).2.1 source hprinted hlimits (by decide)⟩

end Expr
end ActionTree
