/-
# The grammar of expressions

What a text must look like to be an expression, and which one it then is, said
by rules alone: no alternative comes before another, and nothing is read as far
as it goes. A repetition is read from the left, so operators of one level and
accesses apply from left to right.

The rules are written once for any alphabet. A row of tokens is read with every
token as a word of its own and no gaps (`OfTokens`), a row of characters with
lexemes as words and blanks as gaps (`OfChars`). The two agree
(`Derives.exists_tokens`, `Derives.written`), so that the characters of a text
and the structure of an expression are treated apart.

Key definitions: `Grammar.Lexeme`, `Grammar.Derives`, `Expr.DerivedFrom`,
`Grammar.Written`.
Key theorems: `Grammar.Derives.exists_tokens`, `Grammar.Derives.written`.
-/
import ActionTree.Expr.Parser

namespace ActionTree
namespace Grammar

/-! ### Lexemes -/

/-- A row of one or more digits. -/
def Digits (text : List Char) : Prop :=
  text ≠ [] ∧ ∀ c ∈ text, c.isDigit = true

/-- A fraction, which may be left out. -/
inductive Fraction : List Char → Prop where
  | absent : Fraction []
  | present {digits : List Char} : Digits digits → Fraction ('.' :: digits)

/-- A sign, which may be left out. -/
inductive Sign : List Char → Prop where
  | absent : Sign []
  | plus : Sign ['+']
  | minus : Sign ['-']

/-- An exponent, which may be left out. -/
inductive Exponent : List Char → Prop where
  | absent : Exponent []
  | present {letter : Char} {sign digits : List Char} : letter = 'e' ∨ letter = 'E' →
      Sign sign → Digits digits → Exponent (letter :: (sign ++ digits))

/-- The text of a number. -/
inductive Number : List Char → Prop where
  | intro {whole fraction exponent : List Char} : Digits whole → Fraction fraction →
      Exponent exponent → Number (whole ++ (fraction ++ exponent))

/-- The text between two quotes of one kind, and what it stands for. The first
backslash of a pair takes the character behind it along, whichever it is. -/
inductive Quoted (quote : Char) : List Char → List Char → Prop where
  | empty : Quoted quote [] []
  | plain {c : Char} {raw body : List Char} : c ≠ quote → c ≠ '\\' → Quoted quote raw body →
      Quoted quote (c :: raw) (c :: body)
  | escaped {c : Char} {raw body : List Char} : Quoted quote raw body →
      Quoted quote ('\\' :: c :: raw) (Token.unescape c :: body)

/-- The words that are no names. -/
def keywords : List (List Char) :=
  [['t', 'r', 'u', 'e'], ['f', 'a', 'l', 's', 'e'], ['n', 'u', 'l', 'l']]

/-- The ways to write a token. -/
inductive Lexeme : Token → List Char → Prop where
  | null : Lexeme .null ['n', 'u', 'l', 'l']
  | boolTrue : Lexeme (.bool true) ['t', 'r', 'u', 'e']
  | boolFalse : Lexeme (.bool false) ['f', 'a', 'l', 's', 'e']
  | num {text : List Char} {value : Float} : Number text → Decimal.ofText? text = some value →
      Lexeme (.num value) text
  | str {quote : Char} {raw body : List Char} : Token.isQuote quote = true →
      Quoted quote raw body → Lexeme (.str (String.ofList body)) (quote :: (raw ++ [quote]))
  | ident {c : Char} {rest : List Char} : Token.isNameStart c = true →
      (∀ d ∈ rest, Token.isNameChar d = true) → c :: rest ∉ keywords →
      Lexeme (.ident (String.ofList (c :: rest))) (c :: rest)
  | op {op : BinaryOp} : Lexeme (.op op) op.symbol.toList
  | not : Lexeme .not ['!']
  | question : Lexeme .question ['?']
  | colon : Lexeme .colon [':']
  | dot : Lexeme .dot ['.']
  | openParen : Lexeme .openParen ['(']
  | closeParen : Lexeme .closeParen [')']
  | openBracket : Lexeme .openBracket ['[']
  | closeBracket : Lexeme .closeBracket [']']

/-- Nothing but blanks. -/
def Blanks (text : List Char) : Prop :=
  ∀ c ∈ text, Token.isBlank c = true

/-! ### Phrases -/

/-- The sorts of phrases, from the loosest to the tightest. -/
inductive Phrase where
  | conditional
  | disjunction
  | conjunction
  | equality
  | comparison
  | sum
  | product
  | prefixed
  | accessed
  | primary
  deriving DecidableEq

/-- The binary operators that may join the parts of a phrase, and the sort of those
parts. -/
def Phrase.chain? : Phrase → Option (List BinaryOp × Phrase)
  | disjunction => some ([.or], conjunction)
  | conjunction => some ([.and], equality)
  | equality => some ([.strictEq, .strictNe, .eq, .ne], comparison)
  | comparison => some ([.le, .ge, .lt, .gt], sum)
  | sum => some ([.add, .sub], product)
  | product => some ([.mul, .div, .rem], prefixed)
  | conditional | prefixed | accessed | primary => none

/-- The phrases of a sort over an alphabet in which tokens are written as words and
stand apart by gaps, with the expression that each denotes. -/
inductive Derives {α : Type} (word : Token → List α → Prop) (gap : List α → Prop) :
    Phrase → List α → Expr → Prop where
  | null {w : List α} : word .null w → Derives word gap .primary w .null
  | bool {b : Bool} {w : List α} : word (.bool b) w → Derives word gap .primary w (.bool b)
  | num {x : Float} {w : List α} : word (.num x) w → Derives word gap .primary w (.num x)
  | str {s : String} {w : List α} : word (.str s) w → Derives word gap .primary w (.str s)
  | ident {name : String} {w : List α} : word (.ident name) w →
      Derives word gap .primary w (.ident name)
  | parens {l g t g' r : List α} {e : Expr} : word .openParen l → gap g →
      Derives word gap .conditional t e → gap g' → word .closeParen r →
      Derives word gap .primary (l ++ g ++ t ++ g' ++ r) e
  | object {t : List α} {e : Expr} : Derives word gap .primary t e → Derives word gap .accessed t e
  | member {t g d g' w : List α} {e : Expr} {name : String} : Derives word gap .accessed t e →
      gap g → word .dot d → gap g' → word (.ident name) w →
      Derives word gap .accessed (t ++ g ++ d ++ g' ++ w) (.member e name)
  | index {t g l g' i g'' r : List α} {e position : Expr} : Derives word gap .accessed t e →
      gap g → word .openBracket l → gap g' → Derives word gap .conditional i position →
      gap g'' → word .closeBracket r →
      Derives word gap .accessed (t ++ g ++ l ++ g' ++ i ++ g'' ++ r) (.index e position)
  | operand {t : List α} {e : Expr} : Derives word gap .accessed t e →
      Derives word gap .prefixed t e
  | not {w g t : List α} {e : Expr} : word .not w → gap g → Derives word gap .prefixed t e →
      Derives word gap .prefixed (w ++ g ++ t) (.unary .not e)
  | neg {w g t : List α} {e : Expr} : word (.op .sub) w → gap g → Derives word gap .prefixed t e →
      Derives word gap .prefixed (w ++ g ++ t) (.unary .neg e)
  | part {p q : Phrase} {ops : List BinaryOp} {t : List α} {e : Expr} : p.chain? = some (ops, q) →
      Derives word gap q t e → Derives word gap p t e
  | joined {p q : Phrase} {ops : List BinaryOp} {op : BinaryOp} {t g w g' t' : List α}
      {left right : Expr} : p.chain? = some (ops, q) → Derives word gap p t left → gap g →
      op ∈ ops → word (.op op) w → gap g' → Derives word gap q t' right →
      Derives word gap p (t ++ g ++ w ++ g' ++ t') (.binary op left right)
  | plain {t : List α} {e : Expr} : Derives word gap .disjunction t e →
      Derives word gap .conditional t e
  | ternary {t g q g' t' k c k' t'' : List α} {condition consequent alternate : Expr} :
      Derives word gap .disjunction t condition → gap g → word .question q → gap g' →
      Derives word gap .conditional t' consequent → gap k → word .colon c → gap k' →
      Derives word gap .conditional t'' alternate →
      Derives word gap .conditional (t ++ g ++ q ++ g' ++ t' ++ k ++ c ++ k' ++ t'')
        (.ternary condition consequent alternate)

/-- The phrases over characters. -/
abbrev OfChars : Phrase → List Char → Expr → Prop :=
  Derives Lexeme Blanks

/-- The phrases over tokens. -/
abbrev OfTokens : Phrase → List Token → Expr → Prop :=
  Derives (fun token row => row = [token]) (· = [])

/-! ### From characters to tokens and back -/

/-- The ways to write a row of tokens: lexemes with blanks between them, but none at
the two ends. -/
inductive Written : List Token → List Char → Prop where
  | one {token : Token} {word : List Char} : Lexeme token word → Written [token] word
  | cons {token : Token} {tokens : List Token} {word g text : List Char} : Lexeme token word →
      Blanks g → Written tokens text → Written (token :: tokens) (word ++ g ++ text)

theorem Written.lexeme {token : Token} {text : List Char} (h : Written [token] text) :
    Lexeme token text := by
  cases h with
  | one h => exact h
  | cons _ _ h => cases h

/-- Rows joined at a gap. The empty row between the tokens is the gap that the rules
leave there. -/
theorem Written.append {tokens tokens' : List Token} {text g text' : List Char}
    (h : Written tokens text) (hg : Blanks g) (h' : Written tokens' text') :
    Written (tokens ++ [] ++ tokens') (text ++ g ++ text') := by
  induction h with
  | one hw => exact .cons hw hg h'
  | cons hw hg₁ _ ih => simpa using Written.cons hw hg₁ ih

/-- A row of tokens is cut wherever its tokens are cut. -/
theorem Written.of_append {tokens tokens' : List Token} {text : List Char}
    (h : Written (tokens ++ [] ++ tokens') text) (hne : tokens ≠ []) (hne' : tokens' ≠ []) :
    ∃ t g t', text = t ++ g ++ t' ∧ Written tokens t ∧ Blanks g ∧ Written tokens' t' := by
  rw [List.append_nil] at h
  induction tokens generalizing text with
  | nil => exact absurd rfl hne
  | cons token tokens ih =>
    cases tokens with
    | nil =>
      cases h with
      | one => exact absurd rfl hne'
      | cons hw hg ht => exact ⟨_, _, _, rfl, .one hw, hg, ht⟩
    | cons second tokens =>
      cases h with
      | cons hw hg ht =>
        obtain ⟨t, g, t', rfl, h₁, hg', h₂⟩ := ih ht (by simp)
        exact ⟨_, g, t', by simp, .cons hw hg h₁, hg', h₂⟩

theorem Derives.ne_nil {p : Phrase} {tokens : List Token} {e : Expr} (h : OfTokens p tokens e) :
    tokens ≠ [] := by
  induction h <;> simp_all

/-- **A phrase over characters is a phrase over tokens.** Its tokens are those that its
lexemes stand for. -/
theorem Derives.exists_tokens {p : Phrase} {text : List Char} {e : Expr} (h : OfChars p text e) :
    ∃ tokens, OfTokens p tokens e ∧ Written tokens text := by
  induction h with
  | null hw => exact ⟨_, .null rfl, .one hw⟩
  | bool hw => exact ⟨_, .bool rfl, .one hw⟩
  | num hw => exact ⟨_, .num rfl, .one hw⟩
  | str hw => exact ⟨_, .str rfl, .one hw⟩
  | ident hw => exact ⟨_, .ident rfl, .one hw⟩
  | parens hl hg _ hg' hr ih =>
    obtain ⟨_, hts, ht⟩ := ih
    exact ⟨_, .parens rfl rfl hts rfl rfl, ((Written.one hl).append hg ht).append hg' (.one hr)⟩
  | object _ ih =>
    obtain ⟨_, hts, ht⟩ := ih
    exact ⟨_, .object hts, ht⟩
  | member _ hg hd hg' hw ih =>
    obtain ⟨_, hts, ht⟩ := ih
    exact ⟨_, .member hts rfl rfl rfl rfl, (ht.append hg (.one hd)).append hg' (.one hw)⟩
  | index _ hg hl hg' _ hg'' hr ih ih' =>
    obtain ⟨_, hts, ht⟩ := ih
    obtain ⟨_, hts', ht'⟩ := ih'
    exact ⟨_, .index hts rfl rfl rfl hts' rfl rfl,
      ((ht.append hg (.one hl)).append hg' ht').append hg'' (.one hr)⟩
  | operand _ ih =>
    obtain ⟨_, hts, ht⟩ := ih
    exact ⟨_, .operand hts, ht⟩
  | not hw hg _ ih =>
    obtain ⟨_, hts, ht⟩ := ih
    exact ⟨_, .not rfl rfl hts, (Written.one hw).append hg ht⟩
  | neg hw hg _ ih =>
    obtain ⟨_, hts, ht⟩ := ih
    exact ⟨_, .neg rfl rfl hts, (Written.one hw).append hg ht⟩
  | part hp _ ih =>
    obtain ⟨_, hts, ht⟩ := ih
    exact ⟨_, .part hp hts, ht⟩
  | joined hp _ hg hop hw hg' _ ih ih' =>
    obtain ⟨_, hts, ht⟩ := ih
    obtain ⟨_, hts', ht'⟩ := ih'
    exact ⟨_, .joined hp hts rfl hop rfl rfl hts', (ht.append hg (.one hw)).append hg' ht'⟩
  | plain _ ih =>
    obtain ⟨_, hts, ht⟩ := ih
    exact ⟨_, .plain hts, ht⟩
  | ternary _ hg hq hg' _ hk hc hk' _ ih ih' ih'' =>
    obtain ⟨_, hts, ht⟩ := ih
    obtain ⟨_, hts', ht'⟩ := ih'
    obtain ⟨_, hts'', ht''⟩ := ih''
    exact ⟨_, .ternary hts rfl rfl rfl hts' rfl rfl rfl hts'',
      (((ht.append hg (.one hq)).append hg' ht').append hk (.one hc)).append hk' ht''⟩

/-- **A phrase over tokens is a phrase over characters**, however its tokens are
written. -/
theorem Derives.written {p : Phrase} {tokens : List Token} {e : Expr} (h : OfTokens p tokens e) :
    ∀ {text : List Char}, Written tokens text → OfChars p text e := by
  induction h with
  | null hw => subst hw; exact fun ht => .null ht.lexeme
  | bool hw => subst hw; exact fun ht => .bool ht.lexeme
  | num hw => subst hw; exact fun ht => .num ht.lexeme
  | str hw => subst hw; exact fun ht => .str ht.lexeme
  | ident hw => subst hw; exact fun ht => .ident ht.lexeme
  | parens hl hg h hg' hr ih =>
    subst hl hg hg' hr
    intro text ht
    obtain ⟨_, _, _, rfl, ht, hg', hr⟩ := ht.of_append (by simp) (by simp)
    obtain ⟨_, _, _, rfl, hl, hg, ht⟩ := ht.of_append (by simp) h.ne_nil
    exact .parens hl.lexeme hg (ih ht) hg' hr.lexeme
  | object _ ih => exact fun ht => .object (ih ht)
  | member h hg hd hg' hw ih =>
    subst hg hd hg' hw
    intro text ht
    obtain ⟨_, _, _, rfl, ht, hg', hw⟩ := ht.of_append (by simp) (by simp)
    obtain ⟨_, _, _, rfl, ht, hg, hd⟩ := ht.of_append h.ne_nil (by simp)
    exact .member (ih ht) hg hd.lexeme hg' hw.lexeme
  | index h hg hl hg' h' hg'' hr ih ih' =>
    subst hg hl hg' hg'' hr
    intro text ht
    obtain ⟨_, _, _, rfl, ht, hg'', hr⟩ := ht.of_append (by simp) (by simp)
    obtain ⟨_, _, _, rfl, ht, hg', ht'⟩ := ht.of_append (by simp) h'.ne_nil
    obtain ⟨_, _, _, rfl, ht, hg, hl⟩ := ht.of_append h.ne_nil (by simp)
    exact .index (ih ht) hg hl.lexeme hg' (ih' ht') hg'' hr.lexeme
  | operand _ ih => exact fun ht => .operand (ih ht)
  | not hw hg h ih =>
    subst hw hg
    intro text ht
    obtain ⟨_, _, _, rfl, hw, hg, ht⟩ := ht.of_append (by simp) h.ne_nil
    exact .not hw.lexeme hg (ih ht)
  | neg hw hg h ih =>
    subst hw hg
    intro text ht
    obtain ⟨_, _, _, rfl, hw, hg, ht⟩ := ht.of_append (by simp) h.ne_nil
    exact .neg hw.lexeme hg (ih ht)
  | part hp _ ih => exact fun ht => .part hp (ih ht)
  | joined hp h hg hop hw hg' h' ih ih' =>
    subst hg hw hg'
    intro text ht
    obtain ⟨_, _, _, rfl, ht, hg', ht'⟩ := ht.of_append (by simp) h'.ne_nil
    obtain ⟨_, _, _, rfl, ht, hg, hw⟩ := ht.of_append h.ne_nil (by simp)
    exact .joined hp (ih ht) hg hop hw.lexeme hg' (ih' ht')
  | plain _ ih => exact fun ht => .plain (ih ht)
  | ternary h hg hq hg' h' hk hc hk' h'' ih ih' ih'' =>
    subst hg hq hg' hk hc hk'
    intro text ht
    obtain ⟨_, _, _, rfl, ht, hk', ht''⟩ := ht.of_append (by simp) h''.ne_nil
    obtain ⟨_, _, _, rfl, ht, hk, hc⟩ := ht.of_append (by simp) (by simp)
    obtain ⟨_, _, _, rfl, ht, hg', ht'⟩ := ht.of_append (by simp) h'.ne_nil
    obtain ⟨_, _, _, rfl, ht, hg, hq⟩ := ht.of_append h.ne_nil (by simp)
    exact .ternary (ih ht) hg hq.lexeme hg' (ih' ht') hk hc.lexeme hk' (ih'' ht'')

end Grammar

/-- A whole text denotes an expression: a conditional, with blanks around it. -/
def Expr.DerivedFrom (source : String) (expr : Expr) : Prop :=
  ∃ before text after, source.toList = before ++ text ++ after ∧ Grammar.Blanks before ∧
    Grammar.OfChars .conditional text expr ∧ Grammar.Blanks after

end ActionTree
