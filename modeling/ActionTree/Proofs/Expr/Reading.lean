/-
# Texts are read as the grammar says

The tokens of a text are cut off greedily, while the grammar lets a lexeme end
wherever it may. The two agree on every text that is an expression, because the
tokens of an expression alternate between operands and what stands between them
(`Grammar.walk`): no token is followed by a character that would go on its lexeme.

So a text that keeps within the bounds is parsed exactly as the grammar says.
Every derivation of it denotes the same expression, the parser finds that
expression, and it refuses it only for its height; and a text without a
derivation is refused as no expression.

Key definitions: `Grammar.Place`, `Grammar.walk`, `Grammar.Follows`.
Key theorems: `Grammar.take_written`, `Expr.derivedFrom_iff_ofTokens?`,
`Expr.parse_exact`.
-/
import ActionTree.Proofs.Expr.Parsing
import ActionTree.Proofs.Expr.Scanning

namespace ActionTree
namespace Grammar

/-! ### Operands and what stands between them -/

/-- Where a row of tokens may go on: with an operand, behind one, or with a name
behind a point. -/
inductive Place where
  | operand
  | behind
  | name
  deriving DecidableEq

/-- The place behind a token. -/
def Place.next? : Place → Token → Option Place
  | operand, .null | operand, .bool _ | operand, .num _ | operand, .str _ | operand, .ident _ =>
    some behind
  | operand, .not | operand, .op .sub | operand, .openParen => some operand
  | behind, .op _ | behind, .question | behind, .colon | behind, .openBracket => some operand
  | behind, .closeParen | behind, .closeBracket => some behind
  | behind, .dot => some name
  | name, .ident _ => some behind
  | _, _ => none

/-- The place behind a row of tokens. -/
def walk (place : Place) (row : List Token) : Option Place :=
  row.foldlM Place.next? place

theorem walk_cons (place : Place) (token : Token) (row : List Token) :
    walk place (token :: row) = (place.next? token).bind fun place => walk place row := rfl

/-- The tokens of a phrase lead behind an operand. -/
theorem Derives.walk_eq {p : Phrase} {row : List Token} {e : Expr} (h : OfTokens p row e) :
    walk .operand row = some .behind := by
  induction h <;> simp_all [walk, Place.next?]

/-! ### Characters that may follow -/

/-- Characters that a place allows next: behind an operand nothing that goes on a
number or a name, in front of one no equals sign, and no digit in place of a name. -/
def Follows : Place → List Char → Prop
  | .operand, rest => Avoids (· = '=') rest
  | .behind, rest => EndsNumber rest
  | .name, rest => Avoids Char.isDigit rest

theorem endsBefore_of_follows {place next : Place} {token : Token} {rest : List Char}
    (h : place.next? token = some next) (hr : Follows next rest) : token.EndsBefore rest := by
  cases token with
  | null | bool | ident =>
    cases place <;> cases h <;> exact hr.name
  | num => cases place <;> cases h; exact hr
  | op op =>
    cases op with
    | lt | gt | eq | ne => cases place <;> cases h; exact hr
    | _ => trivial
  | not => cases place <;> cases h; exact hr
  | _ => trivial

theorem Blanks.avoids {g : List Char} (h : Blanks g) {p : Char → Bool}
    (hp : ∀ c, Token.isBlank c = true → p c = false) {rest : List Char} (hr : Avoids p rest) :
    Avoids p (g ++ rest) := by
  cases g with
  | nil => exact hr
  | cons c g => exact avoids_cons (hp c (h c List.mem_cons_self)) _

theorem isBlank_cases {c : Char} (h : Token.isBlank c = true) :
    c = ' ' ∨ c = '\t' ∨ c = '\r' ∨ c = '\n' := by
  simpa [Token.isBlank, or_assoc] using h

/-- Blanks may stand at any place. -/
theorem Blanks.follows {g : List Char} (h : Blanks g) {place : Place} {rest : List Char}
    (hr : Follows place rest) : Follows place (g ++ rest) := by
  cases place with
  | operand =>
    exact h.avoids (fun c hc => by rcases isBlank_cases hc with rfl | rfl | rfl | rfl <;> decide) hr
  | name =>
    exact h.avoids (fun c hc => by rcases isBlank_cases hc with rfl | rfl | rfl | rfl <;> decide) hr
  | behind =>
    refine ⟨h.avoids (fun c hc => ?_) hr.name, fun d rest' he => ?_⟩
    · rcases isBlank_cases hc with rfl | rfl | rfl | rfl <;> decide
    · cases g with
      | nil => exact hr.fraction d rest' he
      | cons c g =>
        obtain ⟨rfl, -⟩ := List.cons.inj he
        exact absurd (h _ List.mem_cons_self) (by decide)

/-- At the end of a text blanks may stand behind an operand. -/
theorem Blanks.follows_end {g : List Char} (h : Blanks g) : Follows .behind g := by
  have hg : Follows .behind (g ++ []) := h.follows EndsNumber.nil
  rwa [List.append_nil] at hg

theorem follows_operand {c : Char} (h : c ≠ '=') (rest : List Char) :
    Follows .operand (c :: rest) :=
  avoids_cons (by simpa using h) rest

theorem follows_behind {c : Char} (h : Token.isNameChar c = false) (hp : c ≠ '.')
    (rest : List Char) : Follows .behind (c :: rest) :=
  ⟨avoids_cons h rest, fun _ _ he => absurd (List.cons.inj he).1 hp⟩

theorem Number.exists_cons {text : List Char} (h : Number text) :
    ∃ c rest, text = c :: rest ∧ c.isDigit = true := by
  cases h with
  | @intro whole fraction exponent hw _ _ =>
    obtain ⟨c, digits, rfl, hc⟩ := hw.exists_cons
    exact ⟨c, digits ++ (fraction ++ exponent), rfl, hc⟩

/-- A token that goes on from a place begins with a character that may follow there. -/
theorem Lexeme.follows {token : Token} {word rest : List Char} (h : Lexeme token word)
    {place next : Place} (hn : place.next? token = some next) (hr : Follows next rest) :
    Follows place (word ++ rest) := by
  cases place with
  | operand =>
    cases h with
    | null | boolTrue | boolFalse | not | openParen => exact follows_operand (by decide) _
    | num hnum =>
      obtain ⟨c, digits, rfl, hc⟩ := hnum.exists_cons
      exact follows_operand (by rintro rfl; exact absurd hc (by decide)) _
    | str hq => exact follows_operand (by rintro rfl; exact absurd hq (by decide)) _
    | ident hc => exact follows_operand (by rintro rfl; exact absurd hc (by decide)) _
    | @op op => cases op <;> cases hn; exact follows_operand (by decide) _
    | question | colon | dot | closeParen | openBracket | closeBracket => cases hn
  | behind =>
    cases h with
    | @op op => cases op <;> exact follows_behind (by decide) (by decide) _
    | question | colon | openBracket | closeParen | closeBracket =>
      exact follows_behind (by decide) (by decide) _
    | dot =>
      cases hn
      refine ⟨avoids_cons (by decide) _, fun d rest' he => ?_⟩
      have he : rest = d :: rest' := (List.cons.inj he).2
      exact hr d (by rw [he]; rfl)
    | _ => cases hn
  | name =>
    cases h with
    | ident hc => exact avoids_cons (isDigit_of_isNameStart hc) _
    | @op op => cases op <;> cases hn
    | _ => cases hn

theorem isBlank_eq_false {p : Char → Bool} (hp : [' ', '\t', '\r', '\n'].any p = false)
    {c : Char} (h : p c = true) : Token.isBlank c = false := by
  cases hb : Token.isBlank c with
  | false => rfl
  | true =>
    have hc : c ∈ [' ', '\t', '\r', '\n'] := by simpa using isBlank_cases hb
    exact absurd h (List.any_eq_false.1 hp c hc)

theorem Lexeme.exists_cons {token : Token} {word : List Char} (h : Lexeme token word) :
    ∃ c rest, word = c :: rest ∧ Token.isBlank c = false := by
  cases h with
  | num hnum =>
    obtain ⟨c, digits, rfl, hc⟩ := hnum.exists_cons
    exact ⟨c, digits, rfl, isBlank_eq_false (by decide) hc⟩
  | str hq => exact ⟨_, _, rfl, isBlank_eq_false (by decide) hq⟩
  | ident hc => exact ⟨_, _, rfl, isBlank_eq_false (by decide) hc⟩
  | @op op => cases op <;> exact ⟨_, _, rfl, by decide⟩
  | _ => exact ⟨_, _, rfl, by decide⟩

/-! ### The tokens of a text -/

theorem Written.length_le {tokens : List Token} {text : List Char} (h : Written tokens text) :
    tokens.length ≤ text.length := by
  induction h with
  | one hl =>
    obtain ⟨c, word, rfl, -⟩ := hl.exists_cons
    simp
  | cons hl _ _ ih =>
    obtain ⟨c, word, rfl, -⟩ := hl.exists_cons
    simp only [List.length_append, List.length_cons]
    omega

theorem Written.follows {tokens : List Token} {text : List Char} (h : Written tokens text)
    {place : Place} (hw : walk place tokens = some .behind) {after : List Char}
    (ha : Blanks after) : Follows place (text ++ after) := by
  have hend := ha.follows_end
  induction h generalizing place with
  | @one token _ hl =>
    rw [walk_cons] at hw
    obtain ⟨next, hn, hw⟩ := Option.bind_eq_some_iff.1 hw
    cases hw
    exact hl.follows hn hend
  | cons hl hg ht ih =>
    rw [walk_cons] at hw
    obtain ⟨next, hn, hw⟩ := Option.bind_eq_some_iff.1 hw
    have hr := hl.follows hn (hg.follows (ih hw))
    rw [List.append_assoc, List.append_assoc]
    exact hr

/-- Blanks in front of a token are skipped, and the token is taken off. -/
theorem take_succ {count : Nat} {g word rest : List Char} {token : Token} (hg : Blanks g)
    (hl : Lexeme token word) (hr : token.EndsBefore rest) :
    Token.take (count + 1) (g ++ (word ++ rest)) = token :: Token.take count rest := by
  have hscan := hl.scan?_append hr
  obtain ⟨c, word, rfl, hc⟩ := hl.exists_cons
  have hdrop := dropWhile_append_of_avoids hg (avoids_cons hc (word ++ rest))
  rw [List.cons_append] at hscan ⊢
  simp only [Token.take, hdrop, hscan]

theorem take_blanks (count : Nat) {g : List Char} (hg : Blanks g) : Token.take count g = [] := by
  cases count with
  | zero => rfl
  | succ count =>
    have hdrop := dropWhile_append_of_avoids hg (avoids_nil _)
    rw [List.append_nil] at hdrop
    simp only [Token.take, hdrop]

/-- **The tokens of a text are those it was written with**, if they form an operand. -/
theorem take_written {tokens : List Token} {text : List Char} (h : Written tokens text)
    {place : Place} (hw : walk place tokens = some .behind) {before after : List Char}
    (hb : Blanks before) (ha : Blanks after) {count : Nat} (hc : tokens.length ≤ count) :
    Token.take count (before ++ (text ++ after)) = tokens := by
  have hend := ha.follows_end
  induction h generalizing place before count with
  | one hl =>
    obtain ⟨count, rfl⟩ : ∃ k, count = k + 1 := ⟨count - 1, by simp at hc; omega⟩
    rw [walk_cons] at hw
    obtain ⟨next, hn, hw⟩ := Option.bind_eq_some_iff.1 hw
    cases hw
    rw [take_succ hb hl (endsBefore_of_follows hn hend), take_blanks count ha]
  | cons hl hg ht ih =>
    obtain ⟨count, rfl⟩ : ∃ k, count = k + 1 := ⟨count - 1, by simp at hc; omega⟩
    rw [walk_cons] at hw
    obtain ⟨next, hn, hw⟩ := Option.bind_eq_some_iff.1 hw
    have hr := hg.follows (ht.follows hw ha)
    rw [List.append_assoc, List.append_assoc, take_succ hb hl (endsBefore_of_follows hn hr),
      ih hw hg (by simpa using hc)]

theorem written_cons {token : Token} {tokens : List Token} {word text : List Char}
    (hl : Lexeme token word) (h : (tokens = [] ∧ Blanks text) ∨ ∃ before written after,
      text = before ++ (written ++ after) ∧ Blanks before ∧ Written tokens written ∧
      Blanks after) :
    ∃ written after, word ++ text = written ++ after ∧ Written (token :: tokens) written ∧
      Blanks after := by
  rcases h with ⟨rfl, ha⟩ | ⟨before, written, after, rfl, hb, hw, ha⟩
  · exact ⟨word, text, rfl, .one hl, ha⟩
  · exact ⟨word ++ before ++ written, after, by simp, .cons hl hb hw, ha⟩

/-- The tokens of a text without a stray character are its lexemes. -/
theorem written_of_take {count : Nat} {text : List Char} (hc : text.length ≤ count)
    (h : Token.invalid ∉ Token.take count text) :
    (Token.take count text = [] ∧ Blanks text) ∨ ∃ before written after,
      text = before ++ (written ++ after) ∧ Blanks before ∧
      Written (Token.take count text) written ∧ Blanks after := by
  induction count generalizing text with
  | zero =>
    obtain rfl : text = [] := List.length_eq_zero_iff.1 (by omega)
    exact .inl ⟨rfl, by simp [Blanks]⟩
  | succ count ih =>
    have htext := List.takeWhile_append_dropWhile (p := Token.isBlank) (l := text)
    have hblanks : Blanks (text.takeWhile Token.isBlank) := List.all_eq_true.1 List.all_takeWhile
    unfold Token.take at h ⊢
    split at h
    · rename_i hd
      rw [hd, List.append_nil] at htext
      exact .inl ⟨rfl, htext ▸ hblanks⟩
    · rename_i c rest hd
      split at h
      · simp at h
      · rename_i token rest' hscan
        obtain ⟨word, hword, hl⟩ := lexeme_of_scan? hscan
        have hlen : rest'.length ≤ count := by
          obtain ⟨c', word, rfl, -⟩ := hl.exists_cons
          have h₁ := congrArg List.length htext
          have h₂ := congrArg List.length hword
          rw [List.length_append, hd] at h₁
          simp only [List.length_append, List.length_cons] at h₁ h₂
          omega
        obtain ⟨written, after, hrest, hw, ha⟩ :=
          written_cons hl (ih hlen fun hm => h (List.mem_cons_of_mem _ hm))
        refine .inr ⟨_, written, after, ?_, hblanks, hw, ha⟩
        rw [← hrest, ← hword, ← hd, htext]

theorem invalid_notMem {tokens : List Token} {place next : Place}
    (h : walk place tokens = some next) : Token.invalid ∉ tokens := by
  induction tokens generalizing place with
  | nil => simp
  | cons token tokens ih =>
    rw [walk_cons] at h
    obtain ⟨middle, hn, h⟩ := Option.bind_eq_some_iff.1 h
    intro hm
    rcases List.mem_cons.1 hm with rfl | hm
    · cases place <;> cases hn
    · exact ih h hm

end Grammar

namespace Expr

/-! ### The expression of a text -/

/-- The parser finds what the grammar derives from a text, and nothing else. -/
theorem derivedFrom_iff_ofTokens? {source : String} {e : Expr} :
    DerivedFrom source e ↔ ofTokens? (Token.ofChars source.toList) = some (.of e) := by
  rw [ofTokens?_eq_some_iff]
  constructor
  · rintro ⟨before, text, after, hs, hb, ht, ha⟩
    obtain ⟨tokens, hts, hw⟩ := ht.exists_tokens
    rw [hs, List.append_assoc]
    have hlen : tokens.length ≤ (before ++ (text ++ after)).length := by
      have := hw.length_le
      simp only [List.length_append]
      omega
    rw [Token.ofChars, Grammar.take_written hw hts.walk_eq hb ha hlen]
    exact hts
  · intro h
    have hvalid := Grammar.invalid_notMem h.walk_eq
    rcases Grammar.written_of_take (Nat.le_refl _) hvalid with
      ⟨hnil, -⟩ | ⟨before, text, after, hs, hb, hw, ha⟩
    · exact absurd hnil h.ne_nil
    · exact ⟨before, text, after, by rw [hs, List.append_assoc], hb, h.written hw, ha⟩

theorem parse_of_derived {source : String} (h : checkLimits source = .ok ()) {e : Expr}
    (he : DerivedFrom source e) :
    parse source = if e.height ≤ maxHeight then .ok e else .error (.tooDeep maxHeight) := by
  rw [derivedFrom_iff_ofTokens?] at he
  rw [parse, h, ← Built.finish_of]
  simp only [he]
  rfl

theorem parse_of_not_derived {source : String} (h : checkLimits source = .ok ())
    (hn : ∀ e, ¬ DerivedFrom source e) : parse source = .error (.invalid source) := by
  have hnone : ofTokens? (Token.ofChars source.toList) = none := by
    refine Option.eq_none_iff_forall_ne_some.2 fun built hbuilt => ?_
    refine hn built.expr (derivedFrom_iff_ofTokens?.2 ?_)
    rw [hbuilt, ← eq_of_ofTokens? hbuilt]
  rw [parse, h]
  simp only [hnone]
  rfl

end Expr
end ActionTree
