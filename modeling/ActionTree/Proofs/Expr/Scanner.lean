/-
# The scanner and the tokens of an expression

The count of brackets and question marks goes through a text character by character and
keeps no more than whether it is in a string, and how much is open (`Nesting.Scan`). Over an
expression it never goes astray. Where the grammar has a lexeme the count has it too: it is
in a string strictly within the literals and nowhere else (`Grammar.Spaced.inside_iff`), and
behind a lexeme it is as the count over tokens (`Grammar.Spaced.scan`). And since an
expression closes no more than it has opened, no closing bracket is met where nothing is
open, so what is counted is the number of brackets opened and not yet closed.

Key definitions: `Nesting.Scan`, `Grammar.Spaced`, `Grammar.InLiteral`, `Grammar.InStep`,
`Expr.TokensOf`.
Key theorems: `Nesting.Scan.admits_iff`, `Nesting.Keeps.exact`, `Grammar.Spaced.scan`,
`Grammar.Spaced.inside_iff`, `Expr.scanner_exact`.
-/
import ActionTree.Proofs.Expr.Nesting
import ActionTree.Proofs.Expr.Reading

namespace ActionTree
namespace Nesting

/-! ### Brackets in a row of tokens -/

/-- Whether a token opens a bracket. -/
def opens : Token → Bool
  | .openParen | .openBracket => true
  | _ => false

/-- Whether a token closes a bracket. -/
def closes : Token → Bool
  | .closeParen | .closeBracket => true
  | _ => false

/-- Whether a token is a question mark. -/
def asks : Token → Bool
  | .question => true
  | _ => false

/-- How many brackets a row leaves open: those that it opens less those that it closes. -/
def unclosed (row : List Token) : Nat :=
  row.countP opens - row.countP closes

theorem questions_behind (count : Count) (row : List Token) :
    (count.behind row).questions = count.questions + row.countP asks := by
  induction row generalizing count with
  | nil => rfl
  | cons token row ih =>
    cases token with
    | question =>
      rw [Count.behind_cons, ih, List.countP_cons_of_pos rfl]
      exact Nat.add_right_comm _ _ _
    | _ =>
      rw [Count.behind_cons, ih, List.countP_cons_of_neg Bool.false_ne_true]
      rfl

/-- The brackets that are open at each place of a row are those that were open in front of it
and those that it has opened, less those that it has closed. -/
def Exact (count : Count) (row : List Token) : Prop :=
  ∀ front rest, row = front ++ rest →
    (count.behind front).brackets + front.countP closes = count.brackets + front.countP opens

theorem Exact.nil (count : Count) : Exact count [] := by
  intro front rest h
  obtain ⟨rfl, -⟩ := List.append_eq_nil_iff.1 h.symm
  rfl

theorem Exact.cons {count : Count} {token : Token} {row : List Token}
    (ht : (count.after token).brackets + [token].countP closes =
      count.brackets + [token].countP opens)
    (h : Exact (count.after token) row) : Exact count (token :: row) := by
  intro front rest hrow
  cases front with
  | nil => rfl
  | cons first front =>
    obtain ⟨rfl, hrest⟩ := List.cons.inj hrow
    have hfront := h front rest hrest
    rw [← List.singleton_append, Count.behind_append, List.countP_append, List.countP_append]
    rw [Count.behind_cons, Count.behind_nil]
    omega

/-- Where a closing bracket finds nothing open, one more bracket in front of the row would be
lost in it. -/
theorem exact_or_merged (row : List Token) (b q : Nat) :
    Exact ⟨b, q⟩ row ∨ (⟨b, q⟩ : Count).behind row = (⟨b + 1, q⟩ : Count).behind row := by
  induction row generalizing b q with
  | nil => exact .inl (Exact.nil _)
  | cons token row ih =>
    cases token with
    | openParen | openBracket => exact (ih (b + 1) q).imp_left (Exact.cons rfl)
    | closeParen | closeBracket =>
      cases b with
      | zero => exact .inr rfl
      | succ b => exact (ih b q).imp_left (Exact.cons rfl)
    | question => exact (ih b (q + 1)).imp_left (Exact.cons rfl)
    | _ => exact (ih b q).imp_left (Exact.cons rfl)

/-- **A row that closes what it opens closes nothing else**, wherever it is cut off: a bracket
in front of it would be lost, but over such a row none is. -/
theorem Keeps.exact {row : List Token} (h : Keeps row) (count : Count) : Exact count row := by
  refine (exact_or_merged row count.brackets count.questions).resolve_right fun hm => ?_
  have hfewer := (h count).1
  have hmore := (h { count with brackets := count.brackets + 1 }).1
  rw [← hm] at hmore
  exact absurd (hfewer.symm.trans hmore) (Nat.ne_of_lt (Nat.lt_succ_self _))

/-- The count over such a row, at each of its places. -/
theorem Keeps.behind_eq {row front rest : List Token} (h : Keeps row) (hrow : row = front ++ rest) :
    front.countP closes ≤ front.countP opens ∧
      (⟨0, 0⟩ : Count).behind front = ⟨unclosed front, front.countP asks⟩ := by
  have hexact := h.exact ⟨0, 0⟩ front rest hrow
  have hquestions := questions_behind ⟨0, 0⟩ front
  rw [Nat.zero_add] at hexact hquestions
  refine ⟨by omega, ?_⟩
  rw [unclosed, ← hexact, Nat.add_sub_cancel, ← hquestions]

/-! ### The scanner -/

/-- What the count keeps on its way through a text: where it stands, and what is open. -/
structure Scan where
  place : Place
  count : Count

namespace Scan

/-- In front of a text. -/
def start : Scan :=
  ⟨.outside, ⟨0, 0⟩⟩

/-- What is kept behind a character. -/
def next (s : Scan) (c : Char) : Scan :=
  match s.place with
  | .escaped quote => ⟨.quoted quote, s.count⟩
  | .quoted quote =>
    if c = '\\' then ⟨.escaped quote, s.count⟩
    else if c = quote then ⟨.outside, s.count⟩
    else s
  | .outside =>
    if Token.isQuote c then ⟨.quoted c, s.count⟩
    else if c = '(' || c = '[' then ⟨.outside, s.count.after .openParen⟩
    else if c = ')' || c = ']' then ⟨.outside, s.count.after .closeParen⟩
    else if c = '?' then ⟨.outside, s.count.after .question⟩
    else s

/-- What is kept behind a text. -/
def behind (s : Scan) (text : List Char) : Scan :=
  text.foldl next s

@[simp] theorem behind_nil (s : Scan) : s.behind [] = s := rfl

@[simp] theorem behind_cons (s : Scan) (c : Char) (text : List Char) :
    s.behind (c :: text) = (s.next c).behind text := rfl

@[simp] theorem behind_append (s : Scan) (text text' : List Char) :
    s.behind (text ++ text') = (s.behind text).behind text' :=
  List.foldl_append

/-- Whether a text that goes on from there keeps within a limit. -/
def admits (s : Scan) (limit : Nat) (text : List Char) : Bool :=
  within limit s.place s.count.brackets s.count.questions text

/-- A character that opens too much ends the count; from any other the count goes on with
what is kept behind it. -/
theorem admits_cons {limit : Nat} {s : Scan} (hl : s.count.total ≤ limit) (c : Char)
    (text : List Char) : s.admits limit (c :: text) =
      (decide ((s.next c).count.total ≤ limit) && (s.next c).admits limit text) := by
  obtain ⟨place, ⟨b, q⟩⟩ := s
  have hpass {n : Nat} (hn : n ≤ limit) (x : Bool) : x = (decide (n ≤ limit) && x) := by
    rw [decide_eq_true hn, Bool.true_and]
  have hl : b + q ≤ limit := hl
  cases place with
  | escaped quote => exact hpass hl _
  | quoted quote =>
    simp only [admits, next, within]
    split
    · exact hpass hl _
    · split <;> exact hpass hl _
  | outside =>
    simp only [admits, next, within]
    split
    · exact hpass hl _
    · split
      · rfl
      · split
        · have hless : b - 1 + q ≤ limit := by omega
          exact hpass hless _
        · split
          · rfl
          · exact hpass hl _

/-- **A text keeps within a limit if what is open behind each of its parts does.** -/
theorem admits_iff {limit : Nat} {s : Scan} (hl : s.count.total ≤ limit) (text : List Char) :
    s.admits limit text = true ↔
      ∀ front rest, text = front ++ rest → (s.behind front).count.total ≤ limit := by
  induction text generalizing s with
  | nil =>
    refine iff_of_true rfl fun front rest h => ?_
    obtain ⟨rfl, -⟩ := List.append_eq_nil_iff.1 h.symm
    exact hl
  | cons c text ih =>
    rw [admits_cons hl, Bool.and_eq_true, decide_eq_true_iff]
    constructor
    · rintro ⟨hc, hrest⟩ front rest h
      cases front with
      | nil => exact hl
      | cons d front =>
        obtain ⟨rfl, htext⟩ := List.cons.inj h
        exact (ih hc).1 hrest front rest htext
    · intro h
      have hc : (s.next c).count.total ≤ limit := h [c] text rfl
      refine ⟨hc, (ih hc).2 fun front rest hrest => ?_⟩
      exact h (c :: front) rest (congrArg (c :: ·) hrest)

end Scan

/-! ### The scanner over lexemes -/

theorem Plain.behind_eq {text : List Char} (h : Plain text) (count : Count) :
    (⟨.outside, count⟩ : Scan).behind text = ⟨.outside, count⟩ := by
  induction text with
  | nil => rfl
  | cons c text ih =>
    have hc := h c List.mem_cons_self
    simp only [counts, Bool.or_eq_false_iff, decide_eq_false_iff_not] at hc
    have hnext : (⟨.outside, count⟩ : Scan).next c = ⟨.outside, count⟩ := by
      simp [Scan.next, hc]
    rw [Scan.behind_cons, hnext]
    exact ih fun d hd => h d (List.mem_cons_of_mem c hd)

/-- Between two quotes the scanner is in a string, and nothing counts. At the end it waits
for the second quote, not for a character behind a backslash. -/
theorem quoted_behind {quote : Char} {raw body : List Char} (h : Grammar.Quoted quote raw body)
    (count : Count) :
    (⟨.quoted quote, count⟩ : Scan).behind raw = ⟨.quoted quote, count⟩ ∧
    ∀ front rest, raw = front ++ rest → ∃ place, place ≠ .outside ∧
      (⟨.quoted quote, count⟩ : Scan).behind front = ⟨place, count⟩ := by
  induction h with
  | empty =>
    refine ⟨rfl, fun front rest h => ⟨.quoted quote, nofun, ?_⟩⟩
    obtain ⟨rfl, -⟩ := List.append_eq_nil_iff.1 h.symm
    rfl
  | @plain c raw _ hne hb _ ih =>
    have hnext : (⟨.quoted quote, count⟩ : Scan).next c = ⟨.quoted quote, count⟩ := by
      simp [Scan.next, hne, hb]
    refine ⟨by rw [Scan.behind_cons, hnext]; exact ih.1, fun front rest h => ?_⟩
    cases front with
    | nil => exact ⟨.quoted quote, nofun, rfl⟩
    | cons d front =>
      obtain ⟨rfl, hraw⟩ := List.cons.inj h
      rw [Scan.behind_cons, hnext]
      exact ih.2 front rest hraw
  | @escaped c raw _ _ ih =>
    refine ⟨ih.1, fun front rest h => ?_⟩
    rcases front with _ | ⟨d, _ | ⟨d', front⟩⟩
    · exact ⟨.quoted quote, nofun, rfl⟩
    · obtain ⟨rfl, -⟩ := List.cons.inj h
      exact ⟨.escaped quote, nofun, rfl⟩
    · obtain ⟨rfl, htail⟩ := List.cons.inj h
      exact ih.2 front rest (List.cons.inj htail).2

end Nesting

namespace Grammar

open Nesting

/-- A lexeme is a literal, or has no characters that count, or is a single one that counts as
its token. -/
theorem Lexeme.shape {token : Token} {word : List Char} (h : Lexeme token word) :
    (∃ s, token = .str s) ∨ (∀ s, token ≠ .str s) ∧
      (Plain word ∧ (∀ count : Count, count.after token = count) ∨
      ∃ c, word = [c] ∧
        ∀ count, (⟨.outside, count⟩ : Scan).next c = ⟨.outside, count.after token⟩) := by
  by_cases hs : ∃ s, token = .str s
  · exact .inl hs
  · have hs : ∀ s, token ≠ .str s := fun s he => hs ⟨s, he⟩
    refine .inr ⟨hs, ?_⟩
    by_cases ht : ∀ count : Count, count.after token = count
    · exact .inl ⟨h.plain ht hs, ht⟩
    · cases h with
      | openParen | closeParen | openBracket | closeBracket | question =>
        exact .inr ⟨_, rfl, fun _ => rfl⟩
      | _ => exact absurd (fun _ => rfl) ht

/-- **The scanner behind a lexeme is as the count behind its token.** -/
theorem Lexeme.scan {token : Token} {word : List Char} (h : Lexeme token word) (count : Count) :
    (⟨.outside, count⟩ : Scan).behind word = ⟨.outside, count.after token⟩ := by
  obtain ⟨s, rfl⟩ | ⟨-, ⟨hplain, ht⟩ | ⟨c, rfl, hc⟩⟩ := h.shape
  · cases h with
    | @str quote raw body hq hraw =>
      have hopen : (⟨.outside, count⟩ : Scan).next quote = ⟨.quoted quote, count⟩ := if_pos hq
      have hclose : (⟨.quoted quote, count⟩ : Scan).next quote = ⟨.outside, count⟩ := by
        simp [Scan.next, ne_backslash hq]
      rw [Scan.behind_cons, hopen, Scan.behind_append, (quoted_behind hraw count).1]
      exact hclose
  · rw [ht, hplain.behind_eq]
  · exact hc count

/-- **Within a lexeme nothing has been counted yet**, and the scanner is in a string if the
lexeme is one. -/
theorem Lexeme.scan_inside {token : Token} {head tail : List Char}
    (h : Lexeme token (head ++ tail)) (hhead : head ≠ []) (htail : tail ≠ []) (count : Count) :
    ∃ place, (⟨.outside, count⟩ : Scan).behind head = ⟨place, count⟩ ∧
      (place ≠ .outside ↔ ∃ s, token = .str s) := by
  obtain ⟨s, rfl⟩ | ⟨hs, ⟨hplain, -⟩ | ⟨c, hword, -⟩⟩ := h.shape
  · obtain ⟨c, head, rfl⟩ := List.exists_cons_of_ne_nil hhead
    obtain ⟨tail, d, rfl⟩ : ∃ rest d, tail = rest ++ [d] :=
      ⟨tail.dropLast, tail.getLast htail, (List.dropLast_concat_getLast htail).symm⟩
    generalize hword : c :: head ++ (tail ++ [d]) = word at h
    cases h with
    | @str quote raw body hq hraw =>
      obtain ⟨rfl, hrest⟩ := List.cons.inj hword
      have hrest : head ++ tail ++ [d] = raw ++ [c] := (List.append_assoc _ _ _).trans hrest
      obtain ⟨place, hplace, hbehind⟩ :=
        (quoted_behind hraw count).2 head tail (List.append_inj_left' hrest rfl).symm
      have hopen : (⟨.outside, count⟩ : Scan).next c = ⟨.quoted c, count⟩ := if_pos hq
      exact ⟨place, by rw [Scan.behind_cons, hopen, hbehind], iff_of_true hplace ⟨_, rfl⟩⟩
  · have hhead : Plain head := fun c hc => hplain c (List.mem_append_left tail hc)
    exact ⟨.outside, hhead.behind_eq count, iff_of_false (absurd rfl) fun ⟨s, he⟩ => hs s he⟩
  · have hlength := congrArg List.length hword
    have := List.length_pos_iff.2 hhead
    have := List.length_pos_iff.2 htail
    simp only [List.length_append, List.length_singleton] at hlength
    omega

/-! ### The scanner over a text -/

/-- The ways to write a row of tokens with blanks also at the two ends. -/
inductive Spaced : List Token → List Char → Prop where
  | blanks {gap : List Char} : Blanks gap → Spaced [] gap
  | cons {token : Token} {row : List Token} {gap word text : List Char} : Blanks gap →
      Lexeme token word → Spaced row text → Spaced (token :: row) (gap ++ (word ++ text))

/-- A text is cut within a token: strictly within its lexeme. -/
def CutWithin (token : Token) (row : List Token) (front rest : List Char) : Prop :=
  ∃ before after text head tail text', row = before ++ token :: after ∧
    front = text ++ head ∧ rest = tail ++ text' ∧ head ≠ [] ∧ tail ≠ [] ∧
    Spaced before text ∧ Lexeme token (head ++ tail) ∧ Spaced after text'

/-- A text is cut within a string literal. -/
def InLiteral (row : List Token) (front rest : List Char) : Prop :=
  ∃ s, CutWithin (.str s) row front rest

/-- **A cut goes between two tokens or through one.** -/
theorem Spaced.cut {row : List Token} {text : List Char} (h : Spaced row text) :
    ∀ {front rest : List Char}, text = front ++ rest →
      (∃ before after, row = before ++ after ∧ Spaced before front ∧ Spaced after rest) ∨
      ∃ token, CutWithin token row front rest := by
  induction h with
  | blanks hg =>
    rintro front rest rfl
    exact .inl ⟨[], [], rfl, .blanks fun c hc => hg c (List.mem_append_left rest hc),
      .blanks fun c hc => hg c (List.mem_append_right front hc)⟩
  | @cons token row gap word text hg hl ht ih =>
    intro front rest hcut
    obtain ⟨m, rfl, hm⟩ | ⟨gap', rfl, rfl⟩ := List.append_eq_append_iff.1 hcut
    · obtain ⟨front, rfl, hfront⟩ | ⟨tail, rfl, rfl⟩ := List.append_eq_append_iff.1 hm
      · rcases ih hfront with ⟨before, after, rfl, hb, ha⟩ | ⟨token', hc⟩
        · exact .inl ⟨token :: before, after, rfl, .cons hg hl hb, ha⟩
        · obtain ⟨before, after, text, head, tail, text', rfl, rfl, rfl, hhead, htail, hb, hl',
            ha⟩ := hc
          exact .inr ⟨token', token :: before, after, gap ++ (word ++ text), head, tail, text', rfl,
            by simp, rfl, hhead, htail, .cons hg hl hb, hl', ha⟩
      · by_cases hhead : m = []
        · subst hhead
          have hafter : Spaced (token :: row) ([] ++ (tail ++ text)) := .cons nofun hl ht
          exact .inl ⟨[], token :: row, rfl, .blanks (by simpa using hg), hafter⟩
        · by_cases htail : tail = []
          · subst htail
            have hbefore : Spaced [token] (gap ++ (m ++ [] ++ [])) := .cons hg hl (.blanks nofun)
            exact .inl ⟨[token], row, rfl, by simpa using hbefore, ht⟩
          · exact .inr ⟨token, [], row, gap, m, tail, text, rfl, rfl, rfl, hhead, htail,
              .blanks hg, hl, ht⟩
    · -- The cut is among the blanks in front of the first token.
      have hfront : Blanks front := fun c hc => hg c (List.mem_append_left gap' hc)
      have hgap : Blanks gap' := fun c hc => hg c (List.mem_append_right front hc)
      exact .inl ⟨[], token :: row, rfl, .blanks hfront, .cons hgap hl ht⟩

/-- Behind a row of tokens the scanner is outside of strings and has what the row counts. -/
theorem Spaced.scan {row : List Token} {text : List Char} (h : Spaced row text) (count : Count) :
    (⟨.outside, count⟩ : Scan).behind text = ⟨.outside, count.behind row⟩ := by
  induction h generalizing count with
  | blanks hg => exact hg.plain.behind_eq count
  | cons hg hl _ ih =>
    rw [Scan.behind_append, Scan.behind_append, hg.plain.behind_eq, hl.scan, ih]
    rfl

/-- At a cut through a token the scanner has what the tokens in front of it count. -/
theorem CutWithin.scan {token : Token} {row : List Token} {front rest : List Char}
    (h : CutWithin token row front rest) : ∃ before after place, row = before ++ token :: after ∧
      Scan.start.behind front = ⟨place, (⟨0, 0⟩ : Count).behind before⟩ ∧
      (place ≠ .outside ↔ ∃ s, token = .str s) := by
  obtain ⟨before, after, text, head, tail, text', rfl, rfl, rfl, hhead, htail, hb, hl, -⟩ := h
  obtain ⟨place, hplace, hs⟩ := hl.scan_inside hhead htail ((⟨0, 0⟩ : Count).behind before)
  refine ⟨before, after, place, rfl, ?_, hs⟩
  rw [Scan.behind_append, Scan.start, hb.scan, hplace]

/-- **The scanner is in a string strictly within literals, and nowhere else.** -/
theorem Spaced.inside_iff {row : List Token} {front rest : List Char}
    (h : Spaced row (front ++ rest)) :
    (Scan.start.behind front).place ≠ .outside ↔ InLiteral row front rest := by
  constructor
  · intro hplace
    obtain ⟨before, after, -, hb, -⟩ | ⟨token, hc⟩ := h.cut rfl
    · rw [Scan.start, hb.scan] at hplace
      exact absurd rfl hplace
    · obtain ⟨_, _, place, -, hscan, hs⟩ := hc.scan
      rw [hscan] at hplace
      obtain ⟨s, rfl⟩ := hs.1 hplace
      exact ⟨s, hc⟩
  · rintro ⟨s, hc⟩
    obtain ⟨_, _, place, -, hscan, hs⟩ := hc.scan
    rw [hscan]
    exact hs.2 ⟨s, rfl⟩

/-- Wherever a text is cut, what is open is what the tokens in front of the cut have opened. -/
theorem Spaced.exists_count {row : List Token} {front rest : List Char}
    (h : Spaced row (front ++ rest)) : ∃ before after, row = before ++ after ∧
      (Scan.start.behind front).count = (⟨0, 0⟩ : Count).behind before := by
  obtain ⟨before, after, hrow, hb, -⟩ | ⟨token, hc⟩ := h.cut rfl
  · exact ⟨before, after, hrow, by rw [Scan.start, hb.scan]⟩
  · obtain ⟨before, after, place, hrow, hscan, -⟩ := hc.scan
    exact ⟨before, token :: after, hrow, by rw [hscan]⟩

/-- Where a row is cut its text can be cut too. -/
theorem Spaced.exists_cut {before after : List Token} {text : List Char}
    (h : Spaced (before ++ after) text) : ∃ front rest, text = front ++ rest ∧
      Spaced before front ∧ Spaced after rest := by
  induction before generalizing text with
  | nil => exact ⟨[], text, rfl, .blanks nofun, h⟩
  | cons token before ih =>
    cases h with
    | @cons _ _ gap word _ hg hl ht =>
      obtain ⟨front, rest, rfl, hb, ha⟩ := ih ht
      exact ⟨gap ++ (word ++ front), rest, by simp, .cons hg hl hb, ha⟩

/-- **A text is admitted if the row of its tokens keeps within the limit**, wherever this row
is cut off. -/
theorem Spaced.admits_iff {row : List Token} {text : List Char} (h : Spaced row text)
    (limit : Nat) : Nesting.admits limit text = true ↔
      ∀ before after, row = before ++ after →
        ((⟨0, 0⟩ : Count).behind before).total ≤ limit := by
  have hscan : Nesting.admits limit text = true ↔ _ :=
    Scan.admits_iff (s := Scan.start) (Nat.zero_le limit) text
  rw [hscan]
  constructor
  · rintro hcuts before after rfl
    obtain ⟨front, rest, htext, hb, -⟩ := h.exists_cut
    have hcut := hcuts front rest htext
    rwa [Scan.start, hb.scan] at hcut
  · rintro hrows front rest rfl
    obtain ⟨before, after, hrow, hcount⟩ := h.exists_count
    rw [hcount]
    exact hrows before after hrow

/-- A lexeme with a closing bracket is a literal, or it is this bracket. -/
theorem Lexeme.closes {token : Token} {head tail : List Char} {c : Char}
    (h : Lexeme token (head ++ c :: tail)) (hc : c = ')' ∨ c = ']') (hs : ∀ s, token ≠ .str s) :
    head = [] ∧ Nesting.closes token = true := by
  have hcounts : counts c = true := by rcases hc with rfl | rfl <;> rfl
  obtain ⟨s, rfl⟩ | ⟨-, ⟨hplain, -⟩ | ⟨d, hword, hd⟩⟩ := h.shape
  · exact absurd rfl (hs s)
  · have hfalse := hplain c (List.mem_append_right head List.mem_cons_self)
    exact absurd (hfalse.symm.trans hcounts) Bool.false_ne_true
  · obtain ⟨hhead, hsingle⟩ := List.append_eq_singleton_iff.1 hword |>.resolve_right (by simp)
    obtain ⟨rfl, -⟩ := List.cons.inj hsingle
    have hcount : (⟨1, 0⟩ : Count).after token = ⟨0, 0⟩ := by
      have hnext := hd ⟨1, 0⟩
      rcases hc with rfl | rfl <;> exact (congrArg Scan.count hnext).symm
    refine ⟨hhead, ?_⟩
    cases token with
    | closeParen | closeBracket => rfl
    | _ => cases hcount

/-- **A closing bracket outside of strings is a token.** -/
theorem Spaced.exists_closing {row : List Token} {front rest : List Char} {c : Char}
    (h : Spaced row (front ++ c :: rest)) (hplace : (Scan.start.behind front).place = .outside)
    (hc : c = ')' ∨ c = ']') : ∃ before token after, row = before ++ token :: after ∧
      closes token = true ∧ (Scan.start.behind front).count = (⟨0, 0⟩ : Count).behind before := by
  obtain ⟨before, after, hrow, hb, ha⟩ | ⟨token, hcut⟩ := h.cut rfl
  · have hblank : Token.isBlank c = false := by rcases hc with rfl | rfl <;> rfl
    have hcount : (Scan.start.behind front).count = (⟨0, 0⟩ : Count).behind before := by
      rw [Scan.start, hb.scan]
    generalize htext : c :: rest = text at ha
    cases ha with
    | blanks hg =>
      have := hg c (by rw [← htext]; exact List.mem_cons_self)
      exact absurd (hblank.symm.trans this) Bool.false_ne_true
    | @cons token after gap word text hg hl _ =>
      cases gap with
      | nil =>
        obtain ⟨d, tail, rfl, -⟩ := hl.exists_cons
        obtain ⟨rfl, -⟩ := List.cons.inj htext
        have hstr : ∀ s, token ≠ .str s := by
          rintro s rfl
          cases hl with
          | str hq => rcases hc with rfl | rfl <;> cases hq
        have hword : Lexeme token ([] ++ c :: tail) := hl
        exact ⟨before, token, after, hrow, (hword.closes hc hstr).2, hcount⟩
      | cons d gap =>
        obtain ⟨rfl, -⟩ := List.cons.inj htext
        exact absurd (hblank.symm.trans (hg c List.mem_cons_self)) Bool.false_ne_true
  · obtain ⟨before, after, place, -, hscan, hs⟩ := hcut.scan
    obtain ⟨_, _, _, head, tail, _, -, -, hrest, hhead, htail, -, hl, -⟩ := hcut
    obtain ⟨d, tail, rfl⟩ := List.exists_cons_of_ne_nil htail
    obtain ⟨rfl, -⟩ := List.cons.inj hrest
    rw [hscan] at hplace
    have hstr : ∀ s, token ≠ .str s := fun s he => hs.2 ⟨s, he⟩ hplace
    exact absurd (hl.closes hc hstr).1 hhead

/-! ### The scanner over an expression -/

theorem Written.spaced {row : List Token} {text : List Char} (h : Written row text) :
    ∀ {before after : List Char}, Blanks before → Blanks after →
      Spaced row (before ++ (text ++ after)) := by
  induction h with
  | one hl => exact fun hb ha => .cons hb hl (.blanks ha)
  | cons hl hg _ ih =>
    intro before after hb ha
    rw [List.append_assoc, List.append_assoc]
    exact .cons hb hl (ih hg ha)

theorem Spaced.written {row : List Token} {text : List Char} (h : Spaced row text) :
    (row = [] ∧ Blanks text) ∨ ∃ before written after,
      text = before ++ (written ++ after) ∧ Blanks before ∧ Written row written ∧
      Blanks after := by
  induction h with
  | blanks hg => exact .inl ⟨rfl, hg⟩
  | cons hg hl _ ih =>
    obtain ⟨written, after, htext, hw, ha⟩ := written_cons hl ih
    exact .inr ⟨_, written, after, by rw [htext], hg, hw, ha⟩

/-- The scanner goes through a text as the grammar does: it is in a string where a literal is,
behind a part of the row it has counted the brackets that this part leaves open and its
question marks, and it meets no closing bracket when nothing is open. -/
structure InStep (row : List Token) (text : List Char) : Prop where
  strings : ∀ front rest, text = front ++ rest →
    ((Scan.start.behind front).place ≠ .outside ↔ InLiteral row front rest)
  counted : ∀ before after front rest, row = before ++ after → text = front ++ rest →
    Spaced before front → Spaced after rest →
    Scan.start.behind front = ⟨.outside, ⟨unclosed before, before.countP asks⟩⟩
  closed : ∀ front c rest, text = front ++ c :: rest → c = ')' ∨ c = ']' →
    (Scan.start.behind front).place = .outside → 0 < (Scan.start.behind front).count.brackets

theorem Spaced.inStep {row : List Token} {text : List Char} (h : Spaced row text)
    (hk : Keeps row) : InStep row text where
  strings := by
    rintro front rest rfl
    exact h.inside_iff
  counted := by
    rintro before after front rest hrow - hb -
    rw [Scan.start, hb.scan, (hk.behind_eq hrow).2]
  closed := by
    rintro front c rest rfl hc hplace
    obtain ⟨before, token, after, rfl, hclose, hcount⟩ := h.exists_closing hplace hc
    have hrow : before ++ token :: after = before ++ [token] ++ after := by simp
    have hopen : opens token = false := by cases token <;> first | rfl | cases hclose
    have hle := (hk.behind_eq hrow).1
    rw [List.countP_append, List.countP_append, List.countP_singleton, List.countP_singleton,
      hclose, hopen, if_pos rfl, if_neg Bool.false_ne_true] at hle
    rw [hcount, (hk.behind_eq rfl).2]
    show 0 < before.countP opens - before.countP closes
    omega

end Grammar

namespace Expr

open Grammar Nesting

/-- The row of tokens from which the grammar derives a text. -/
def TokensOf (source : String) (row : List Token) : Prop :=
  Spaced row source.toList ∧ ∃ e, OfTokens .conditional row e

theorem TokensOf.eq_ofChars {source : String} {row : List Token} (h : TokensOf source row) :
    row = Token.ofChars source.toList := by
  obtain ⟨hs, e, he⟩ := h
  obtain ⟨hnil, -⟩ | ⟨before, written, after, htext, hb, hw, ha⟩ := hs.written
  · exact absurd hnil he.ne_nil
  · have hlength : row.length ≤ (before ++ (written ++ after)).length := by
      have := hw.length_le
      simp only [List.length_append]
      omega
    rw [htext, Token.ofChars, take_written hw he.walk_eq hb ha hlength]

theorem DerivedFrom.exists_tokensOf {source : String} {e : Expr} (h : DerivedFrom source e) :
    ∃ row, TokensOf source row := by
  obtain ⟨before, text, after, hsource, hb, ht, ha⟩ := h
  obtain ⟨row, hrow, hw⟩ := ht.exists_tokens
  refine ⟨row, ?_, e, hrow⟩
  rw [hsource, List.append_assoc]
  exact hw.spaced hb ha

/-- A text keeps the limits, or its row of tokens exceeds them at one of its places. -/
theorem checkLimits_cases {source : String} (hsize : source.utf8ByteSize ≤ maxSourceBytes)
    {row : List Token} (h : Spaced row source.toList) (hk : Keeps row) :
    (checkLimits source = .ok () ∧ ∀ before after, row = before ++ after →
      unclosed before + before.countP asks ≤ maxNesting) ∨
    (checkLimits source = .error (.tooDeep maxNesting) ∧ ∃ before after, row = before ++ after ∧
      maxNesting < unclosed before + before.countP asks) := by
  have hlimits : checkLimits source =
      if Nesting.admits maxNesting source.toList = true then .ok ()
      else .error (.tooDeep maxNesting) := if_neg (Nat.not_lt.2 hsize)
  have htotal : ∀ before after, row = before ++ after →
      ((⟨0, 0⟩ : Count).behind before).total = unclosed before + before.countP asks :=
    fun before after hrow => congrArg Count.total (hk.behind_eq hrow).2
  have hadmits := h.admits_iff maxNesting
  by_cases ha : Nesting.admits maxNesting source.toList = true
  · refine .inl ⟨hlimits.trans (if_pos ha), fun before after hrow => ?_⟩
    rw [← htotal before after hrow]
    exact hadmits.1 ha before after hrow
  · refine .inr ⟨hlimits.trans (if_neg ha), ?_⟩
    refine Classical.byContradiction fun hnone => ha (hadmits.2 fun before after hrow => ?_)
    rw [htotal before after hrow]
    exact Nat.not_lt.1 fun hlt => hnone ⟨before, after, hrow, hlt⟩

/-- **The scanner counts the tokens of the grammar.** A text of which the grammar makes an
expression has one row of tokens. It is refused as nested too deeply exactly if some part of
this row, from its beginning, has more brackets not yet closed and question marks than are
allowed; and whatever stands in its literals, the scanner and the grammar keep in step. -/
theorem scanner_exact {source : String} {e : Expr} (hsize : source.utf8ByteSize ≤ maxSourceBytes)
    (h : DerivedFrom source e) : ∃ row, TokensOf source row ∧
      (∀ row', TokensOf source row' → row' = row) ∧
      (checkLimits source = .error (.tooDeep maxNesting) ↔
        ∃ before after, row = before ++ after ∧
          maxNesting < unclosed before + before.countP asks) ∧
      (checkLimits source = .ok () ↔
        ∀ before after, row = before ++ after →
          unclosed before + before.countP asks ≤ maxNesting) ∧
      InStep row source.toList := by
  obtain ⟨row, hrow⟩ := h.exists_tokensOf
  have hunique : ∀ row', TokensOf source row' → row' = row :=
    fun row' hrow' => hrow'.eq_ofChars.trans hrow.eq_ofChars.symm
  obtain ⟨hspaced, _, he⟩ := hrow
  refine ⟨row, ⟨hspaced, _, he⟩, hunique, ?_, ?_, hspaced.inStep he.keeps⟩
  · obtain ⟨hok, hall⟩ | ⟨herror, hsome⟩ := checkLimits_cases hsize hspaced he.keeps
    · rw [hok]
      refine iff_of_false nofun ?_
      rintro ⟨before, after, hrow, hlt⟩
      exact absurd (hall before after hrow) (Nat.not_le.2 hlt)
    · exact iff_of_true herror hsome
  · obtain ⟨hok, hall⟩ | ⟨herror, before, after, hrow, hlt⟩ :=
      checkLimits_cases hsize hspaced he.keeps
    · exact iff_of_true hok hall
    · rw [herror]
      exact iff_of_false nofun fun hall => absurd (hall before after hrow) (Nat.not_le.2 hlt)

/-- A text in which brackets, a question mark and quotes stand in literals too. -/
theorem scanner_exact_quoted :
    let source := "a['(?\\''] ? \"'[\" : b"
    let e := ternary (index (ident "a") (str "(?'")) (str "'[") (ident "b")
    source.utf8ByteSize ≤ maxSourceBytes ∧ DerivedFrom source e ∧
      ∃ row, TokensOf source row ∧ InStep row source.toList := by
  intro source e
  have hsize : source.utf8ByteSize ≤ maxSourceBytes := by decide
  have htext : source.toList = ['a', '[', '\'', '(', '?', '\\', '\'', '\'', ']', ' ', '?', ' ',
      '"', '\'', '[', '"', ' ', ':', ' ', 'b'] := by
    simp [source]
  have hderived : DerivedFrom source e := by
    rw [derivedFrom_iff_ofTokens?, htext]
    rfl
  obtain ⟨row, hrow, -, -, -, hstep⟩ := scanner_exact hsize hderived
  exact ⟨hsize, hderived, row, hrow, hstep⟩

end Expr
end ActionTree
