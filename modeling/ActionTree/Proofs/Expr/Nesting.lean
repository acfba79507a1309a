/-
# The nesting of a row of tokens

Before a text is parsed, its brackets and question marks are counted character by
character. Each of them is a token of its own, and all other lexemes are passed over,
strings with whatever stands in them (`Grammar.Lexeme.skipped`). So the count can be kept
over tokens instead, and a text that keeps within a limit is a row that does, also where
it is no expression (`Grammar.total_behind_le`). Over an expression the brackets come
back to where they were (`Grammar.Derives.keeps`).

Key definitions: `Nesting.Count`, `Nesting.Count.behind`, `Nesting.Plain`, `Nesting.Skipped`,
`Nesting.Keeps`.
Key theorems: `Grammar.Lexeme.plain`, `Grammar.Lexeme.skipped`, `Grammar.total_behind_le`,
`Grammar.Derives.keeps`.
-/
import ActionTree.Proofs.Expr.Scanning

namespace ActionTree
namespace Nesting

/-! ### Counting over tokens -/

/-- How many brackets are open, and how many question marks were passed. -/
structure Count where
  brackets : Nat
  questions : Nat

namespace Count

/-- The levels that are open. -/
def total (count : Count) : Nat :=
  count.brackets + count.questions

/-- The count behind a token. -/
def after (count : Count) : Token → Count
  | .openParen | .openBracket => { count with brackets := count.brackets + 1 }
  | .closeParen | .closeBracket => { count with brackets := count.brackets - 1 }
  | .question => { count with questions := count.questions + 1 }
  | _ => count

/-- The count behind a row of tokens. -/
def behind (count : Count) (row : List Token) : Count :=
  row.foldl after count

@[simp] theorem behind_nil (count : Count) : count.behind [] = count := rfl

@[simp] theorem behind_cons (count : Count) (token : Token) (row : List Token) :
    count.behind (token :: row) = (count.after token).behind row := rfl

@[simp] theorem behind_append (count : Count) (row row' : List Token) :
    count.behind (row ++ row') = (count.behind row).behind row' :=
  List.foldl_append

theorem total_after_le (count : Count) (token : Token) :
    (count.after token).total ≤ count.total + 1 := by
  unfold after
  split <;> simp only [total] <;> omega

/-- Every token opens one level at most. -/
theorem total_behind_le_length (count : Count) (row : List Token) :
    (count.behind row).total ≤ count.total + row.length := by
  induction row generalizing count with
  | nil => exact Nat.le_refl _
  | cons token row ih =>
    have hone := total_after_le count token
    have hrest := ih (count.after token)
    rw [behind_cons, List.length_cons]
    omega

end Count

/-! ### Characters that count for nothing -/

/-- The characters that the count takes notice of. -/
def counts (c : Char) : Bool :=
  Token.isQuote c || c = '(' || c = '[' || c = ')' || c = ']' || c = '?'

/-- A text without such characters. -/
def Plain (text : List Char) : Prop :=
  ∀ c ∈ text, counts c = false

/-- A text that the count passes over, in front of any other. -/
def Skipped (text : List Char) : Prop :=
  ∀ limit brackets questions rest,
    within limit .outside brackets questions (text ++ rest) =
      within limit .outside brackets questions rest

theorem Plain.append {text text' : List Char} (h : Plain text) (h' : Plain text') :
    Plain (text ++ text') :=
  fun c hc => (List.mem_append.1 hc).elim (h c) (h' c)

theorem plain_of_any {text : List Char} (h : text.any counts = false) : Plain text :=
  fun c hc => Bool.eq_false_iff.2 (List.any_eq_false.1 h c hc)

theorem Plain.skipped {text : List Char} (h : Plain text) : Skipped text := by
  intro limit brackets questions rest
  induction text with
  | nil => rfl
  | cons c text ih =>
    have hc := h c List.mem_cons_self
    simp only [counts, Bool.or_eq_false_iff, decide_eq_false_iff_not] at hc
    rw [List.cons_append, within, if_neg (by simp [hc]), if_neg (by simp [hc]),
      if_neg (by simp [hc]), if_neg (by simp [hc])]
    exact ih fun d hd => h d (List.mem_cons_of_mem c hd)

/-- What stands between two quotes is passed over with the second of them. -/
theorem within_quoted {quote : Char} {raw body : List Char} (h : Grammar.Quoted quote raw body)
    (hq : quote ≠ '\\') (limit brackets questions : Nat) (rest : List Char) :
    within limit (.quoted quote) brackets questions (raw ++ quote :: rest) =
      within limit .outside brackets questions rest := by
  induction h with
  | empty => rw [List.nil_append, within, if_neg hq, if_pos rfl]
  | plain hne hb _ ih => rw [List.cons_append, within, if_neg hb, if_neg hne, ih]
  | escaped _ ih => rw [List.cons_append, List.cons_append, within, if_pos rfl, within, ih]

theorem ne_backslash {quote : Char} (h : Token.isQuote quote = true) : quote ≠ '\\' := by
  rintro rfl
  exact absurd h (by decide)

theorem skipped_string {quote : Char} (hq : Token.isQuote quote = true) {raw body : List Char}
    (h : Grammar.Quoted quote raw body) : Skipped (quote :: (raw ++ [quote])) := by
  intro limit brackets questions rest
  rw [List.cons_append, within, if_pos hq, List.append_assoc]
  exact within_quoted h (ne_backslash hq) limit brackets questions rest

theorem counts_eq_false {p : Char → Bool}
    (hp : ['"', '\'', '(', '[', ')', ']', '?'].any p = false) {c : Char} (h : p c = true) :
    counts c = false := by
  cases hc : counts c with
  | false => rfl
  | true =>
    have hm : c ∈ ['"', '\'', '(', '[', ')', ']', '?'] := by
      simpa [counts, Token.isQuote, or_assoc] using hc
    exact absurd h (List.any_eq_false.1 hp c hm)

end Nesting

namespace Grammar

open Nesting

theorem Blanks.plain {text : List Char} (h : Blanks text) : Plain text :=
  fun c hc => counts_eq_false (by decide) (h c hc)

theorem Digits.plain {text : List Char} (h : Digits text) : Plain text :=
  fun c hc => counts_eq_false (by decide) (h.2 c hc)

theorem Number.plain {text : List Char} (h : Number text) : Plain text := by
  cases h with
  | intro hw hf he =>
    refine hw.plain.append (Plain.append ?_ ?_)
    · cases hf with
      | absent => exact plain_of_any rfl
      | present hd =>
        have hpoint : Plain ['.'] := plain_of_any (by decide)
        exact hpoint.append hd.plain
    · cases he with
      | absent => exact plain_of_any rfl
      | @present letter sign digits hl hs hd =>
        have hletter : Plain [letter] := by
          rcases hl with rfl | rfl <;> exact plain_of_any (by decide)
        have hsign : Plain sign := by
          cases hs <;> exact plain_of_any (by decide)
        exact hletter.append (hsign.append hd.plain)

/-- A lexeme that is no string and does not count has no character that does. -/
theorem Lexeme.plain {token : Token} {word : List Char} (h : Lexeme token word)
    (ht : ∀ count : Count, count.after token = count) (hs : ∀ s, token ≠ .str s) : Plain word := by
  cases h with
  | num hn => exact hn.plain
  | str => exact absurd rfl (hs _)
  | ident hc hrest =>
    refine fun d hd => counts_eq_false (p := Token.isNameChar) (by decide) ?_
    rcases List.mem_cons.1 hd with rfl | hd
    · exact isNameChar_of_isNameStart hc
    · exact hrest d hd
  | @op op => cases op <;> exact plain_of_any (by decide)
  | null | boolTrue | boolFalse | not | colon | dot => exact plain_of_any (by decide)
  | openParen | openBracket | question => exact absurd (ht ⟨0, 0⟩) (by simp [Count.after])
  | closeParen | closeBracket => exact absurd (ht ⟨1, 0⟩) (by simp [Count.after])

/-- **Only brackets and question marks count.** -/
theorem Lexeme.skipped {token : Token} {word : List Char} (h : Lexeme token word)
    (ht : ∀ count : Count, count.after token = count) : Skipped word := by
  by_cases hs : ∃ s, token = .str s
  · obtain ⟨s, rfl⟩ := hs
    cases h with
    | str hq hraw => exact skipped_string hq hraw
  · exact (h.plain ht fun s he => hs ⟨s, he⟩).skipped

/-- A text that keeps within a limit goes on from behind its first token, with the count
that the token leaves. -/
theorem Lexeme.within {token : Token} {word : List Char} (h : Lexeme token word) {limit : Nat}
    {count : Count} (hl : count.total ≤ limit) {rest : List Char}
    (hw : Nesting.within limit .outside count.brackets count.questions (word ++ rest) = true) :
    (count.after token).total ≤ limit ∧
      Nesting.within limit .outside (count.after token).brackets (count.after token).questions
        rest = true := by
  by_cases ht : ∀ count : Count, count.after token = count
  · rw [ht]
    exact ⟨hl, by rwa [h.skipped ht] at hw⟩
  · cases h with
    | openParen | openBracket | question =>
      simpa [Nesting.within, Token.isQuote, Count.after, Count.total, Nat.add_right_comm,
        Nat.add_assoc] using hw
    | closeParen | closeBracket =>
      refine ⟨?_, hw⟩
      simp only [Count.after, Count.total] at hl ⊢
      omega
    | _ => exact absurd (fun _ => rfl) ht

/-- **What keeps within a limit as a text does so as a row of tokens**, at each of its
places. -/
theorem total_behind_le {limit : Nat} : ∀ (size : Nat) {text : List Char} {count : Count},
    count.total ≤ limit →
    Nesting.within limit .outside count.brackets count.questions text = true →
    ∀ {before after : List Token}, Token.take size text = before ++ after →
    (count.behind before).total ≤ limit := by
  intro size
  induction size with
  | zero =>
    intro text count hl hw before after hrow
    obtain ⟨rfl, -⟩ := List.append_eq_nil_iff.1 hrow.symm
    exact hl
  | succ size ih =>
    intro text count hl hw before after hrow
    cases before with
    | nil => exact hl
    | cons first before =>
      have htext := List.takeWhile_append_dropWhile (p := Token.isBlank) (l := text)
      have hblanks : Blanks (text.takeWhile Token.isBlank) := List.all_eq_true.1 List.all_takeWhile
      rw [← htext, hblanks.plain.skipped] at hw
      unfold Token.take at hrow
      split at hrow
      · cases hrow
      · rename_i c rest hd
        rw [hd] at hw
        split at hrow
        · obtain ⟨rfl, hnil⟩ := List.cons.inj hrow
          obtain ⟨rfl, -⟩ := List.append_eq_nil_iff.1 hnil.symm
          exact hl
        · rename_i token rest' hscan
          obtain ⟨rfl, htokens⟩ := List.cons.inj hrow
          obtain ⟨word, hword, hlexeme⟩ := lexeme_of_scan? hscan
          rw [hword] at hw
          obtain ⟨hl, hw⟩ := hlexeme.within hl hw
          exact ih hl hw htokens

/-! ### Counting over expressions -/

end Grammar

/-- Over a row the brackets come back to where they were. Question marks stay. -/
def Nesting.Keeps (row : List Token) : Prop :=
  ∀ count : Count, (count.behind row).brackets = count.brackets ∧
    count.questions ≤ (count.behind row).questions

namespace Nesting.Keeps

theorem append {row row' : List Token} (h : Keeps row) (h' : Keeps row') :
    Keeps (row ++ row') := by
  intro count
  obtain ⟨hb, hq⟩ := h count
  obtain ⟨hb', hq'⟩ := h' (count.behind row)
  rw [Count.behind_append]
  exact ⟨hb'.trans hb, Nat.le_trans hq hq'⟩

theorem one {token : Token} (h : ∀ count : Count, count.after token = count) : Keeps [token] := by
  intro count
  rw [Count.behind_cons, h]
  exact ⟨rfl, Nat.le_refl _⟩

theorem question : Keeps [.question] :=
  fun _ => ⟨rfl, Nat.le_succ _⟩

theorem enclosed {row : List Token} (h : Keeps row) {opening closing : Token}
    (ho : ∀ count : Count, count.after opening = count.after .openParen)
    (hc : ∀ count : Count, count.after closing = count.after .closeParen) :
    Keeps (opening :: (row ++ [closing])) := by
  intro count
  obtain ⟨hb, hq⟩ := h (count.after opening)
  rw [Count.behind_cons, Count.behind_append, Count.behind_cons, hc]
  rw [ho] at hb hq ⊢
  exact ⟨congrArg (· - 1) hb, hq⟩

end Nesting.Keeps

/-- **An expression closes what it opens.** -/
theorem Grammar.Derives.keeps {p : Phrase} {row : List Token} {e : Expr} (h : OfTokens p row e) :
    Nesting.Keeps row := by
  induction h with
  | null hw | bool hw | num hw | str hw | ident hw =>
    subst hw
    exact .one fun _ => rfl
  | parens hl hg _ hg' hr ih =>
    subst hl hg hg' hr
    simpa using ih.enclosed (fun _ => rfl) fun _ => rfl
  | object _ ih | operand _ ih | part _ _ ih | plain _ ih => exact ih
  | @member _ _ _ _ _ _ name _ hg hd hg' hw ih =>
    subst hg hd hg' hw
    have hname : Nesting.Keeps [.dot, .ident name] :=
      .append (.one fun _ => rfl) (.one fun _ => rfl)
    simpa using ih.append hname
  | index _ hg hl hg' _ hg'' hr ih ih' =>
    subst hg hl hg' hg'' hr
    have hposition : Nesting.Keeps (.openBracket :: (_ ++ [.closeBracket])) :=
      ih'.enclosed (fun _ => rfl) fun _ => rfl
    simpa using ih.append hposition
  | not hw hg _ ih | neg hw hg _ ih =>
    subst hw hg
    exact ih
  | @joined _ _ _ op _ _ _ _ _ _ _ _ _ hg _ hw hg' _ ih ih' =>
    subst hg hw hg'
    have hop : Nesting.Keeps [.op op] := .one fun _ => rfl
    simpa using ih.append (hop.append ih')
  | ternary _ hg hq hg' _ hk hc hk' _ ih ih' ih'' =>
    subst hg hq hg' hk hc hk'
    have hcolon : Nesting.Keeps [.colon] := .one fun _ => rfl
    simpa using ih.append (Nesting.Keeps.question.append (ih'.append (hcolon.append ih'')))

end ActionTree
