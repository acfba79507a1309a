/-
# A token is taken off a text as the grammar writes it

`Token.scan?` takes a lexeme of the grammar off the front of a text, with the value
that the lexeme has (`lexeme_of_scan?`), and every lexeme that is not continued by
what follows it is taken as a whole (`scan?_append`). What continues a lexeme is
little: behind a word a further letter or digit, behind a number also a fraction,
and behind a sign that is part of a longer one its next character
(`Token.EndsBefore`).

Key definitions: `Token.EndsBefore`.
Key theorems: `Grammar.lexeme_of_scan?`, `Grammar.Lexeme.scan?_append`.
-/
import ActionTree.Proofs.Expr.Grammar

namespace ActionTree
namespace Grammar

/-! ### Runs of characters -/

/-- A text does not begin with a character of a class. -/
def Avoids (p : Char → Bool) (rest : List Char) : Prop :=
  ∀ c ∈ rest.head?, p c = false

theorem takeWhile_append_of_avoids {p : Char → Bool} {run rest : List Char}
    (h : ∀ c ∈ run, p c = true) (hr : Avoids p rest) : (run ++ rest).takeWhile p = run := by
  rw [List.takeWhile_append_of_pos h]
  cases rest with
  | nil => simp
  | cons c rest => simp [hr c rfl]

theorem dropWhile_append_of_avoids {p : Char → Bool} {run rest : List Char}
    (h : ∀ c ∈ run, p c = true) (hr : Avoids p rest) : (run ++ rest).dropWhile p = rest := by
  rw [List.dropWhile_append_of_pos h]
  cases rest with
  | nil => simp
  | cons c rest => simp [hr c rfl]

theorem avoids_nil (p : Char → Bool) : Avoids p [] := by
  intro c hc
  cases hc

theorem avoids_cons {p : Char → Bool} {c : Char} (h : p c = false) (rest : List Char) :
    Avoids p (c :: rest) := by
  intro d hd
  cases Option.mem_some.1 hd
  exact h

/-! ### Numbers -/

/-- A text does not go on a number that stands in front of it. -/
structure EndsNumber (rest : List Char) : Prop where
  name : Avoids Token.isNameChar rest
  fraction : ∀ d rest', rest = '.' :: d :: rest' → d.isDigit = false

theorem EndsNumber.nil : EndsNumber [] where
  name := avoids_nil _
  fraction := fun _ _ h => by cases h

theorem isNameChar_of_isDigit {c : Char} (h : c.isDigit = true) : Token.isNameChar c = true := by
  simp [Token.isNameChar, Char.isAlphanum, h]

theorem EndsNumber.digit {rest : List Char} (h : EndsNumber rest) : Avoids Char.isDigit rest := by
  intro c hc
  cases hd : c.isDigit with
  | false => rfl
  | true => rw [← h.name c hc, isNameChar_of_isDigit hd]

theorem scanDigits_append {digits rest : List Char} (h : ∀ c ∈ digits, c.isDigit = true)
    (hr : Avoids Char.isDigit rest) : Decimal.scanDigits (digits ++ rest) = (digits, rest) := by
  rw [Decimal.scanDigits, takeWhile_append_of_avoids h hr, dropWhile_append_of_avoids h hr]

theorem Digits.exists_cons {digits : List Char} (h : Digits digits) :
    ∃ c rest, digits = c :: rest ∧ c.isDigit = true := by
  obtain ⟨hne, hd⟩ := h
  obtain ⟨c, rest, rfl⟩ := List.exists_cons_of_ne_nil hne
  exact ⟨c, rest, rfl, hd c List.mem_cons_self⟩

/-- A digit is no sign. -/
theorem scanSign_digits {digits : List Char} (h : Digits digits) (rest : List Char) :
    Decimal.scanSign (digits ++ rest) = (false, digits ++ rest) := by
  obtain ⟨c, digits, rfl, hc⟩ := h.exists_cons
  rw [List.cons_append]
  unfold Decimal.scanSign
  split
  · rename_i h; cases h; exact absurd hc (by decide)
  · rename_i h; cases h; exact absurd hc (by decide)
  · rfl

theorem Sign.scan {sign digits : List Char} (h : Sign sign) (hd : Digits digits)
    (rest : List Char) :
    Decimal.scanSign (sign ++ (digits ++ rest)) = (decide (sign = ['-']), digits ++ rest) := by
  cases h with
  | absent => exact scanSign_digits hd rest
  | plus | minus => rfl

theorem scanExponent?_of_avoids {rest : List Char} (h : Avoids Token.isNameChar rest) :
    Decimal.scanExponent? rest = none := by
  unfold Decimal.scanExponent?
  split
  · rename_i c rest
    rw [if_neg]
    intro he
    have hc := h c rfl
    simp only [Bool.or_eq_true, decide_eq_true_eq] at he
    rcases he with rfl | rfl <;> exact absurd hc (by decide)
  · rfl

/-- The power of ten that an exponent denotes. -/
def exponentOf (text : List Char) : Int :=
  ((Decimal.scanExponent? text).map Prod.fst).getD 0

theorem scanExponent?_append {letter : Char} {sign digits rest : List Char}
    (hl : letter = 'e' ∨ letter = 'E') (hs : Sign sign) (hd : Digits digits)
    (hr : Avoids Char.isDigit rest) :
    Decimal.scanExponent? (letter :: (sign ++ digits) ++ rest) =
      some (Decimal.signedExponent (decide (sign = ['-'])) digits, rest) := by
  have hne : digits.isEmpty = false := by simpa using hd.1
  have he : (decide (letter = 'e') || decide (letter = 'E')) = true := by simpa using hl
  simp only [List.cons_append, List.append_assoc, Decimal.scanExponent?, he, if_true,
    hs.scan hd, scanDigits_append hd.2 hr, hne, Bool.false_eq_true, if_false]

theorem exponentOf_cons {letter : Char} {sign digits : List Char}
    (hl : letter = 'e' ∨ letter = 'E') (hs : Sign sign) (hd : Digits digits) :
    exponentOf (letter :: (sign ++ digits)) =
      Decimal.signedExponent (decide (sign = ['-'])) digits := by
  have h := scanExponent?_append hl hs hd (avoids_nil _)
  rw [List.append_nil] at h
  rw [exponentOf, h]
  rfl

theorem Exponent.scan {text : List Char} (h : Exponent text) {rest : List Char}
    (hr : EndsNumber rest) : Decimal.scanExponent? (text ++ rest) =
      if text = [] then none else some (exponentOf text, rest) := by
  cases h with
  | absent => exact scanExponent?_of_avoids hr.name
  | present hl hs hd =>
    rw [scanExponent?_append hl hs hd hr.digit, if_neg (List.cons_ne_nil _ _),
      exponentOf_cons hl hs hd]

/-- An exponent goes on no number without one, as far as its digits are concerned. -/
theorem Exponent.avoids {text : List Char} (h : Exponent text) {rest : List Char}
    (hr : EndsNumber rest) : Avoids Char.isDigit (text ++ rest) ∧
      ∀ d rest', text ++ rest = '.' :: d :: rest' → d.isDigit = false := by
  cases h with
  | absent => exact ⟨hr.digit, hr.fraction⟩
  | present hl =>
    refine ⟨avoids_cons (by rcases hl with rfl | rfl <;> decide) _, fun d rest' h => ?_⟩
    rw [List.cons_append] at h
    obtain ⟨rfl, -⟩ := List.cons.inj h
    rcases hl with h | h <;> exact absurd h (by decide)

theorem scanFraction_of_ne {rest : List Char}
    (h : ∀ d rest', rest = '.' :: d :: rest' → d.isDigit = false) :
    Token.scanFraction rest = ([], rest) := by
  unfold Token.scanFraction
  split
  · rename_i c rest
    rw [h c rest rfl]
    rfl
  · rfl

theorem Fraction.scan {text : List Char} (h : Fraction text) {rest : List Char}
    (hr : Avoids Char.isDigit rest)
    (hf : ∀ d rest', rest = '.' :: d :: rest' → d.isDigit = false) :
    Token.scanFraction (text ++ rest) = (text.drop 1, rest) := by
  cases h with
  | absent => exact scanFraction_of_ne hf
  | @present digits hd =>
    have hscan := scanDigits_append hd.2 hr
    obtain ⟨c, digits, rfl, hc⟩ := hd.exists_cons
    simp only [List.cons_append, Token.scanFraction, hc, if_true]
    exact hscan

theorem Fraction.avoids {text : List Char} (h : Fraction text) {rest : List Char}
    (hr : Avoids Char.isDigit rest) : Avoids Char.isDigit (text ++ rest) := by
  cases h with
  | absent => exact hr
  | present => exact avoids_cons (by decide) _

/-- The parts of a number. -/
def numeralOf (whole fraction exponent : List Char) : Decimal.Numeral :=
  ⟨whole, fraction.drop 1, exponentOf exponent⟩

theorem scanNumeral_append {whole fraction exponent rest : List Char} (hw : Digits whole)
    (hf : Fraction fraction) (he : Exponent exponent) (hr : EndsNumber rest) :
    Token.scanNumeral (whole ++ (fraction ++ exponent) ++ rest) =
      (numeralOf whole fraction exponent, rest) := by
  obtain ⟨hdigit, hpoint⟩ := he.avoids hr
  have h₁ := scanDigits_append hw.2 (hf.avoids hdigit)
  have h₂ := hf.scan hdigit hpoint
  rw [← List.append_assoc] at h₁
  simp only [Token.scanNumeral, List.append_assoc, numeralOf] at h₁ h₂ ⊢
  rw [h₁, h₂, he.scan hr]
  by_cases hn : exponent = []
  · subst hn; rfl
  · rw [if_neg hn]

theorem toLower_of_isDigit {c : Char} (h : c.isDigit = true) : c.toLower = c := by
  unfold Char.toLower
  rw [dif_neg]
  rintro ⟨hupper, -⟩
  simp only [Char.isDigit, ge_iff_le, Bool.and_eq_true, decide_eq_true_eq] at h
  exact absurd (UInt32.le_trans hupper h.2) (by decide)

/-- A number is none of the words for infinity and NaN. -/
theorem magnitude?_digits {whole : List Char} (hw : Digits whole) (rest : List Char) :
    Decimal.magnitude? (whole ++ rest) =
      (Decimal.Numeral.ofText? (whole ++ rest)).map Decimal.Numeral.toFloat := by
  obtain ⟨c, digits, rfl, hc⟩ := hw.exists_cons
  have hi : c ≠ 'i' := by rintro rfl; exact absurd hc (by decide)
  have hn : c ≠ 'n' := by rintro rfl; exact absurd hc (by decide)
  simp [Decimal.magnitude?, toLower_of_isDigit hc, hi, hn]

/-- A number ends with its exponent when nothing follows. -/
theorem ofText?_exponent (whole fraction exponent : List Char) : Exponent exponent →
    (match exponent with
      | [] => some ⟨whole, fraction, 0⟩
      | rest => match Decimal.scanExponent? rest with
        | some (exponent, []) => some ⟨whole, fraction, exponent⟩
        | _ => none) = some (Decimal.Numeral.mk whole fraction (exponentOf exponent)) := by
  intro he
  have hscan := he.scan EndsNumber.nil
  rw [List.append_nil] at hscan
  cases exponent with
  | nil => rfl
  | cons c exponent =>
    rw [if_neg (List.cons_ne_nil _ _)] at hscan
    simp only [hscan]

theorem Numeral.ofText?_append {whole fraction exponent : List Char} (hw : Digits whole)
    (hf : Fraction fraction) (he : Exponent exponent) :
    Decimal.Numeral.ofText? (whole ++ (fraction ++ exponent)) =
      some (numeralOf whole fraction exponent) := by
  have hne : whole.isEmpty = false := by simpa using hw.1
  obtain ⟨hdigit, -⟩ := he.avoids EndsNumber.nil
  rw [List.append_nil] at hdigit
  rw [Decimal.Numeral.ofText?, scanDigits_append hw.2 (hf.avoids hdigit)]
  cases hf with
  | present hd =>
    simp only [List.cons_append, scanDigits_append hd.2 hdigit, hne, Bool.false_and,
      Bool.false_eq_true, if_false]
    exact ofText?_exponent _ _ _ he
  | absent =>
    simp only [List.nil_append]
    split
    · cases he with
      | present hl => rcases hl with h | h <;> exact absurd h (by decide)
    · simp only [hne, Bool.false_and, Bool.false_eq_true, if_false]
      exact ofText?_exponent _ _ _ he

/-- The two ways to read a number agree: taken off the front of a text
(`scanNumeral_append`), and as a whole text. -/
theorem ofText?_number {whole fraction exponent : List Char} (hw : Digits whole)
    (hf : Fraction fraction) (he : Exponent exponent) :
    Decimal.ofText? (whole ++ (fraction ++ exponent)) =
      some (numeralOf whole fraction exponent).toFloat := by
  simp [Decimal.ofText?, scanSign_digits hw, magnitude?_digits hw, Numeral.ofText?_append hw hf he]

theorem scanSign_sound {text rest : List Char} {negative : Bool}
    (h : Decimal.scanSign text = (negative, rest)) :
    ∃ sign, text = sign ++ rest ∧ Sign sign ∧ negative = decide (sign = ['-']) := by
  unfold Decimal.scanSign at h
  split at h
  · cases h; exact ⟨['-'], rfl, .minus, rfl⟩
  · cases h; exact ⟨['+'], rfl, .plus, rfl⟩
  · cases h; exact ⟨[], rfl, .absent, rfl⟩

theorem scanDigits_sound {text digits rest : List Char}
    (h : Decimal.scanDigits text = (digits, rest)) :
    text = digits ++ rest ∧ ∀ c ∈ digits, c.isDigit = true := by
  cases h
  exact ⟨List.takeWhile_append_dropWhile.symm, List.all_eq_true.1 List.all_takeWhile⟩

theorem scanExponent?_sound {text rest : List Char} {k : Int}
    (h : Decimal.scanExponent? text = some (k, rest)) :
    ∃ e, text = e ++ rest ∧ Exponent e ∧ exponentOf e = k := by
  unfold Decimal.scanExponent? at h
  split at h
  · rename_i letter text
    split at h
    · rename_i hl
      simp only [Bool.or_eq_true, decide_eq_true_eq] at hl
      obtain ⟨negative, rest₁, hsign⟩ : ∃ negative rest₁, Decimal.scanSign text =
          (negative, rest₁) := ⟨_, _, rfl⟩
      obtain ⟨digits, rest₂, hscan⟩ : ∃ digits rest₂, Decimal.scanDigits rest₁ =
          (digits, rest₂) := ⟨_, _, rfl⟩
      obtain ⟨sign, rfl, hs, rfl⟩ := scanSign_sound hsign
      obtain ⟨rfl, hdigits⟩ := scanDigits_sound hscan
      simp only [hsign, hscan] at h
      split at h
      · cases h
      · rename_i hne
        cases h
        have hd : Digits digits := ⟨by simpa using hne, hdigits⟩
        exact ⟨letter :: (sign ++ digits), by simp, .present hl hs hd, exponentOf_cons hl hs hd⟩
    · cases h
  · cases h

theorem scanFraction_sound {text digits rest : List Char}
    (h : Token.scanFraction text = (digits, rest)) :
    ∃ f, text = f ++ rest ∧ Fraction f ∧ f.drop 1 = digits := by
  unfold Token.scanFraction at h
  split at h
  · rename_i c text
    split at h
    · rename_i hc
      obtain ⟨htext, hdigits⟩ := scanDigits_sound h
      have hne : digits ≠ [] := by
        rintro rfl
        simp [Decimal.scanDigits, hc] at h
      exact ⟨'.' :: digits, by rw [htext]; rfl, .present ⟨hne, hdigits⟩, rfl⟩
    · cases h; exact ⟨[], rfl, .absent, rfl⟩
  · cases h; exact ⟨[], rfl, .absent, rfl⟩

/-- What is taken off as a number is one, and its value is that of the whole text. -/
theorem scanNumeral_sound {c : Char} {text rest : List Char} {numeral : Decimal.Numeral}
    (hc : c.isDigit = true) (h : Token.scanNumeral (c :: text) = (numeral, rest)) :
    ∃ w, c :: text = w ++ rest ∧ Number w ∧ Decimal.ofText? w = some numeral.toFloat := by
  unfold Token.scanNumeral at h
  obtain ⟨whole, rest₁, hwhole⟩ : ∃ whole rest₁, Decimal.scanDigits (c :: text) = (whole, rest₁) :=
    ⟨_, _, rfl⟩
  obtain ⟨fraction, rest₂, hfraction⟩ : ∃ fraction rest₂, Token.scanFraction rest₁ =
      (fraction, rest₂) := ⟨_, _, rfl⟩
  obtain ⟨htext, hdigits⟩ := scanDigits_sound hwhole
  obtain ⟨f, rfl, hf, rfl⟩ := scanFraction_sound hfraction
  have hne : whole ≠ [] := by
    rintro rfl
    simp [Decimal.scanDigits, hc] at hwhole
  simp only [hwhole, hfraction] at h
  split at h
  · rename_i k rest' he
    cases h
    obtain ⟨e, rfl, hexp, rfl⟩ := scanExponent?_sound he
    exact ⟨whole ++ (f ++ e), by simp [htext], .intro ⟨hne, hdigits⟩ hf hexp,
      ofText?_number ⟨hne, hdigits⟩ hf hexp⟩
  · cases h
    exact ⟨whole ++ (f ++ []), by simp [htext], .intro ⟨hne, hdigits⟩ hf .absent,
      ofText?_number ⟨hne, hdigits⟩ hf .absent⟩

/-! ### Strings -/

/-- A character that is no backslash stands for itself, or ends the string. -/
theorem scanString?_cons {quote c : Char} (h : c ≠ '\\') (rest : List Char) :
    Token.scanString? quote (c :: rest) =
      if c = quote then some ([], rest)
      else (Token.scanString? quote rest).map fun (body, rest) => (c :: body, rest) := by
  rw [Token.scanString?]
  · exact fun hc _ => h hc
  · exact fun _ _ hc _ => h hc

theorem scanString?_append {quote : Char} (hq : quote ≠ '\\') {raw body : List Char}
    (h : Quoted quote raw body) (rest : List Char) :
    Token.scanString? quote (raw ++ quote :: rest) = some (body, rest) := by
  induction h with
  | empty => rw [List.nil_append, scanString?_cons hq, if_pos rfl]
  | plain hne hb _ ih => rw [List.cons_append, scanString?_cons hb, if_neg hne, ih]; rfl
  | escaped _ ih => rw [List.cons_append, List.cons_append, Token.scanString?, ih]; rfl

theorem scanString?_sound {quote : Char} {text : List Char} : ∀ {body rest : List Char},
    Token.scanString? quote text = some (body, rest) →
    ∃ raw, text = raw ++ quote :: rest ∧ Quoted quote raw body := by
  fun_induction Token.scanString? quote text with
  | case1 | case2 => intro _ _ h; cases h
  | case3 c text ih =>
    intro body rest h
    obtain ⟨⟨body, rest'⟩, hr, h⟩ := Option.map_eq_some_iff.1 h
    cases h
    obtain ⟨raw, rfl, hraw⟩ := ih hr
    exact ⟨'\\' :: c :: raw, rfl, .escaped hraw⟩
  | case4 text =>
    intro body rest h
    cases h
    exact ⟨[], rfl, .empty⟩
  | case5 c text hend hescape hne ih =>
    intro body rest h
    have hc : c ≠ '\\' := by
      intro hc
      cases text with
      | nil => exact hend hc rfl
      | cons d text => exact hescape d text hc rfl
    obtain ⟨⟨body, rest'⟩, hr, h⟩ := Option.map_eq_some_iff.1 h
    cases h
    obtain ⟨raw, rfl, hraw⟩ := ih hr
    exact ⟨c :: raw, rfl, .plain hne hc hraw⟩

/-! ### Signs -/

theorem scanSign?_sound {text rest : List Char} {token : Token}
    (h : Token.scanSign? text = some (token, rest)) :
    ∃ w, text = w ++ rest ∧ Lexeme token w := by
  unfold Token.scanSign? at h
  split at h <;> cases h
  · exact ⟨['|', '|'], rfl, .op⟩
  · exact ⟨['&', '&'], rfl, .op⟩
  · exact ⟨['=', '=', '='], rfl, .op⟩
  · exact ⟨['=', '='], rfl, .op⟩
  · exact ⟨['!', '=', '='], rfl, .op⟩
  · exact ⟨['!', '='], rfl, .op⟩
  · exact ⟨['!'], rfl, .not⟩
  · exact ⟨['<', '='], rfl, .op⟩
  · exact ⟨['<'], rfl, .op⟩
  · exact ⟨['>', '='], rfl, .op⟩
  · exact ⟨['>'], rfl, .op⟩
  · exact ⟨['+'], rfl, .op⟩
  · exact ⟨['-'], rfl, .op⟩
  · exact ⟨['*'], rfl, .op⟩
  · exact ⟨['/'], rfl, .op⟩
  · exact ⟨['%'], rfl, .op⟩
  · exact ⟨['?'], rfl, .question⟩
  · exact ⟨[':'], rfl, .colon⟩
  · exact ⟨['.'], rfl, .dot⟩
  · exact ⟨['('], rfl, .openParen⟩
  · exact ⟨[')'], rfl, .closeParen⟩
  · exact ⟨['['], rfl, .openBracket⟩
  · exact ⟨[']'], rfl, .closeBracket⟩

end Grammar

/-- What follows a token does not go on the lexeme of the token. -/
def Token.EndsBefore (rest : List Char) : Token → Prop
  | null | bool _ | ident _ => Grammar.Avoids isNameChar rest
  | num _ => Grammar.EndsNumber rest
  | not | op .lt | op .gt | op .eq | op .ne => Grammar.Avoids (· = '=') rest
  | _ => True

namespace Grammar

theorem ne_of_avoids_equals {rest : List Char} (h : Avoids (· = '=') rest) (rest' : List Char) :
    rest ≠ '=' :: rest' := by
  rintro rfl
  exact absurd (h '=' rfl) (by decide)

theorem scanSign?_op {op : BinaryOp} {rest : List Char} (h : Token.EndsBefore rest (.op op)) :
    Token.scanSign? (op.symbol.toList ++ rest) = some (.op op, rest) := by
  cases op with
  | lt | gt | eq | ne => simp [Token.scanSign?, BinaryOp.symbol, ne_of_avoids_equals h]
  | _ => rfl

theorem scanSign?_not {rest : List Char} (h : Token.EndsBefore rest .not) :
    Token.scanSign? ('!' :: rest) = some (.not, rest) := by
  simp [Token.scanSign?, ne_of_avoids_equals h]

/-! ### Words -/

theorem isNameChar_of_isNameStart {c : Char} (h : Token.isNameStart c = true) :
    Token.isNameChar c = true := by
  simp only [Token.isNameStart, Token.isNameChar, Char.isAlphanum, Bool.or_eq_true] at h ⊢
  rcases h with (h | h) | h
  · exact .inl (.inl (.inl h))
  · exact .inl (.inr h)
  · exact .inr h

theorem val_le_of_isDigit {c : Char} (h : c.isDigit = true) :
    '0'.val ≤ c.val ∧ c.val ≤ '9'.val := by
  have h : ('0'.val ≤ c.val && c.val ≤ '9'.val) = true := h
  simpa using h

theorem le_val_of_isAlpha {c : Char} (h : c.isAlpha = true) : 'A'.val ≤ c.val := by
  have h : (decide ('A'.val ≤ c.val ∧ c.val ≤ 'Z'.val) ||
    ('a'.val ≤ c.val && c.val ≤ 'z'.val)) = true := h
  simp only [Bool.or_eq_true, Bool.and_eq_true, decide_eq_true_eq] at h
  rcases h with ⟨h, -⟩ | ⟨h, -⟩
  · exact h
  · exact UInt32.le_trans (by decide) h

theorem isDigit_of_isNameStart {c : Char} (h : Token.isNameStart c = true) :
    c.isDigit = false := by
  cases hd : c.isDigit with
  | false => rfl
  | true =>
    simp only [Token.isNameStart, Bool.or_eq_true, decide_eq_true_eq] at h
    rcases h with (h | rfl) | rfl
    · have hle := UInt32.le_trans (le_val_of_isAlpha h) (val_le_of_isDigit hd).2
      exact absurd hle (by decide)
    · exact absurd hd (by decide)
    · exact absurd hd (by decide)

theorem ofWord_of_not_mem {word : List Char} (h : word ∉ keywords) :
    Token.ofWord word = .ident (String.ofList word) := by
  have hne : ∀ keyword ∈ keywords, String.ofList word ≠ String.ofList keyword :=
    fun keyword hk he => h (String.ofList_injective he ▸ hk)
  unfold Token.ofWord
  split
  · rename_i h; exact absurd h (hne ['t', 'r', 'u', 'e'] (by decide))
  · rename_i h; exact absurd h (hne ['f', 'a', 'l', 's', 'e'] (by decide))
  · rename_i h; exact absurd h (hne ['n', 'u', 'l', 'l'] (by decide))
  · rfl

theorem lexeme_ofWord {c : Char} {rest : List Char} (hc : Token.isNameStart c = true)
    (hr : ∀ d ∈ rest, Token.isNameChar d = true) :
    Lexeme (Token.ofWord (c :: rest)) (c :: rest) := by
  by_cases hk : c :: rest ∈ keywords
  · simp only [keywords, List.mem_cons, List.not_mem_nil, or_false] at hk
    rcases hk with hk | hk | hk
    · rw [hk]; exact .boolTrue
    · rw [hk]; exact .boolFalse
    · rw [hk]; exact .null
  · rw [ofWord_of_not_mem hk]
    exact .ident hc hr hk

/-- Every way to write a word is read as that word. -/
theorem scan?_word {c : Char} {word rest : List Char} (hc : Token.isNameStart c = true)
    (hw : ∀ d ∈ word, Token.isNameChar d = true) (hr : Avoids Token.isNameChar rest) :
    Token.scan? (c :: word ++ rest) = some (Token.ofWord (c :: word), rest) := by
  have hall : ∀ d ∈ c :: word, Token.isNameChar d = true := by
    simpa [isNameChar_of_isNameStart hc] using hw
  have htake := takeWhile_append_of_avoids hall hr
  have hdrop := dropWhile_append_of_avoids hall hr
  rw [List.cons_append] at htake hdrop ⊢
  rw [Token.scan?, isDigit_of_isNameStart hc, if_neg (by decide), if_pos hc, htake, hdrop]

/-! ### Tokens -/

/-- **What is taken off a text as a token is a lexeme of it.** -/
theorem lexeme_of_scan? {text rest : List Char} {token : Token}
    (h : Token.scan? text = some (token, rest)) : ∃ w, text = w ++ rest ∧ Lexeme token w := by
  cases text with
  | nil => cases h
  | cons c text =>
    rw [Token.scan?] at h
    split at h
    · rename_i hc
      obtain ⟨numeral, rest', hscan⟩ : ∃ numeral rest', Token.scanNumeral (c :: text) =
          (numeral, rest') := ⟨_, _, rfl⟩
      obtain ⟨w, htext, hw, hvalue⟩ := scanNumeral_sound hc hscan
      simp only [hscan] at h
      cases h
      exact ⟨w, htext, .num hw hvalue⟩
    · split at h
      · rename_i hc
        cases h
        refine ⟨_, List.takeWhile_append_dropWhile.symm, ?_⟩
        rw [List.takeWhile_cons_of_pos (isNameChar_of_isNameStart hc)]
        exact lexeme_ofWord hc (List.all_eq_true.1 List.all_takeWhile)
      · split at h
        · rename_i hc
          obtain ⟨⟨body, rest'⟩, hr, h⟩ := Option.map_eq_some_iff.1 h
          cases h
          obtain ⟨raw, rfl, hraw⟩ := scanString?_sound hr
          exact ⟨c :: (raw ++ [c]), by simp, .str hc hraw⟩
        · exact scanSign?_sound h

/-- **A lexeme is taken off a text as a whole**, if what follows does not go on it. -/
theorem Lexeme.scan?_append {token : Token} {word rest : List Char} (h : Lexeme token word)
    (hr : token.EndsBefore rest) : Token.scan? (word ++ rest) = some (token, rest) := by
  cases h with
  | null => exact scan?_word (by decide) (List.all_eq_true.1 (by decide)) hr
  | boolTrue => exact scan?_word (by decide) (List.all_eq_true.1 (by decide)) hr
  | boolFalse => exact scan?_word (by decide) (List.all_eq_true.1 (by decide)) hr
  | num hn hv =>
    cases hn with
    | intro hw hf he =>
      have hscan := scanNumeral_append hw hf he hr
      rw [ofText?_number hw hf he] at hv
      cases hv
      obtain ⟨c, digits, rfl, hc⟩ := hw.exists_cons
      simp only [List.cons_append] at hscan ⊢
      rw [Token.scan?, if_pos hc, hscan]
  | @str quote raw body hq hraw =>
    have hquote : quote = '"' ∨ quote = '\'' := by simpa [Token.isQuote] using hq
    have hdigit : quote.isDigit = false := by rcases hquote with rfl | rfl <;> decide
    have hstart : Token.isNameStart quote = false := by rcases hquote with rfl | rfl <;> decide
    have hne : quote ≠ '\\' := by rcases hquote with rfl | rfl <;> decide
    have hscan := scanString?_append hne hraw rest
    rw [List.cons_append, List.append_assoc, List.singleton_append, Token.scan?, hdigit, hstart,
      if_neg (by decide), if_neg (by decide), if_pos hq, hscan]
    rfl
  | ident hc hw hk => rw [scan?_word hc hw hr, ofWord_of_not_mem hk]
  | @op op =>
    have hsign : Token.scan? (op.symbol.toList ++ rest) =
        Token.scanSign? (op.symbol.toList ++ rest) := by cases op <;> rfl
    rw [hsign, scanSign?_op hr]
  | not => exact scanSign?_not hr
  | question | colon | dot | openParen | closeParen | openBracket | closeBracket => rfl

end Grammar
end ActionTree
