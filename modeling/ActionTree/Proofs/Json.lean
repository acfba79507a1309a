/-
# Quoted texts are read back

A text in quotes, with its quotes, backslashes and control characters escaped, is read as the
text itself, whatever follows the closing quote (`Json.readString?_escaped`). So is an object
of one field whose value is read back (`Json.readValue?_field`), and a document of one text at
the end of a path of two names (`Json.ofText?_compact_text`).

Key theorems: `Json.readString?_escape`, `Json.readString?_escaped`, `Json.readValue?_field`,
`Json.ofText?_compact_text`.
-/
import ActionTree.Json.Printer
import ActionTree.Json.Reader

namespace ActionTree
namespace Json

variable {done text rest : List Char} {c : Char} {fuel depth : Nat} {value : Json}

/-! ### Strings -/

theorem unit?_control : ∀ n < 0x20, unit? '0' '0' (hexDigit (n / 16)) (hexDigit n) = some n := by
  decide

/-- A control character is read back from its code. -/
theorem readString?_control (h : c.toNat < 0x20) :
    readString? done ('\\' :: 'u' :: '0' :: '0' :: hexDigit (c.toNat / 16) :: hexDigit c.toNat ::
      rest) = readString? (c :: done) rest := by
  have hhigh : ¬ 0xD800 ≤ c.toNat := by omega
  have hlow : ¬ 0xDC00 ≤ c.toNat := by omega
  rw [readString?, unit?_control _ h]
  simp only [hhigh, hlow, decide_false, Bool.false_and, Bool.false_eq_true, ↓reduceIte,
    Char.ofNat_toNat]

/-- A character that is not escaped is read as itself. -/
theorem readString?_plain (hquote : c ≠ '"') (hbackslash : c ≠ '\\') (h : ¬ c.toNat < 0x20) :
    readString? done (c :: rest) = readString? (c :: done) rest := by
  rw [readString?]
  · simp [hbackslash, h]
  all_goals simp_all

/-- **A character inside quotes is read back.** -/
theorem readString?_escape (done rest : List Char) (c : Char) :
    readString? done (escape c ++ rest) = readString? (c :: done) rest := by
  unfold escape
  split
  case h_8 hquote hbackslash _ _ _ _ _ =>
    by_cases h : c.toNat < 0x20
    · rw [if_pos h]
      exact readString?_control h
    · rw [if_neg h]
      exact readString?_plain (fun he => hquote he) (fun he => hbackslash he) h
  all_goals
    rw [List.cons_append, List.cons_append, List.nil_append, readString?] <;> simp [escaped?]

/-- **A quoted text is read back** up to the closing quote. -/
theorem readString?_escaped (done text rest : List Char) :
    readString? done (text.flatMap escape ++ '"' :: rest) =
      some (String.ofList (done.reverse ++ text), rest) := by
  induction text generalizing done with
  | nil => simp [readString?]
  | cons c text ih =>
    rw [List.flatMap_cons, List.append_assoc, readString?_escape, ih]
    simp

/-- A text in quotes. -/
theorem toList_quote (s : String) :
    (quote s).toList = '"' :: (s.toList.flatMap escape ++ ['"']) := by
  rw [quote, String.toList_ofList, List.cons_append]

theorem skipBlank_cons (h : isBlank c = false) : skipBlank (c :: rest) = c :: rest := by
  rw [skipBlank, List.dropWhile_cons, h]
  rfl

/-! ### Values -/

theorem readValue?_str (fuel depth : Nat) (s : String) (rest : List Char) :
    readValue? (fuel + 1) depth ((quote s).toList ++ rest) = some (.str s, rest) := by
  rw [toList_quote, List.cons_append, List.append_assoc, readValue?]
  rw [List.singleton_append, readString?_escaped]
  simp

/-- **An object of one field is read back** if its value is. -/
theorem readValue?_field (name : String) (hc : isBlank c = false)
    (h : readValue? fuel depth (c :: text ++ '}' :: rest) = some (value, '}' :: rest)) :
    readValue? (fuel + 2) (depth + 1)
      ('{' :: ((quote name).toList ++ ':' :: (c :: text ++ '}' :: rest))) =
        some (.obj [(name, value)], rest) := by
  have hcolon : skipBlank (':' :: (c :: text ++ '}' :: rest)) =
      ':' :: (c :: text ++ '}' :: rest) := skipBlank_cons (by decide)
  have hvalue : skipBlank (c :: text ++ '}' :: rest) = c :: text ++ '}' :: rest :=
    skipBlank_cons hc
  have hclosing : skipBlank ('}' :: rest) = '}' :: rest := skipBlank_cons (by decide)
  have hfield : readFields? (fuel + 1) depth [] ((quote name).toList ++ ':' :: (c :: text ++
      '}' :: rest)) = some (.obj [(name, value)], rest) := by
    rw [toList_quote, List.cons_append, List.append_assoc, List.singleton_append, readFields?,
      readString?_escaped]
    simp only [hcolon, hvalue, h, hclosing]
    simp [object, Fields.ofList, Fields.set]
  have hquote : skipBlank ((quote name).toList ++ ':' :: (c :: text ++ '}' :: rest)) =
      (quote name).toList ++ ':' :: (c :: text ++ '}' :: rest) := by
    rw [toList_quote]
    exact skipBlank_cons (by decide)
  rw [readValue?, hquote]
  split
  · rename_i hclosed
    rw [toList_quote] at hclosed
    cases hclosed
  · exact hfield

/-- **A document with one text in it is read back.** -/
theorem ofText?_compact_text (outer inner s : String) :
    ofText? (obj [(outer, obj [(inner, str s)])]).compact =
      some (obj [(outer, obj [(inner, str s)])]) := by
  let quoted := (quote s).toList
  let inside := '{' :: ((quote inner).toList ++ ':' :: (quoted ++ ['}']))
  let whole := '{' :: ((quote outer).toList ++ ':' :: (inside ++ ['}']))
  have htext : (obj [(outer, obj [(inner, str s)])]).compact.toList = whole := by
    simp [compact, compactFields, whole, inside, quoted]
  have hquoted : quoted = '"' :: (s.toList.flatMap escape ++ ['"']) := toList_quote s
  obtain ⟨fuel, hfuel⟩ : ∃ fuel, 2 * whole.length + 2 = fuel + 1 + 2 + 2 := by
    have hlength : whole.length = (quote outer).toList.length + inside.length + 3 := by
      simp only [whole, List.length_cons, List.length_append, List.length_nil]
      omega
    exact ⟨2 * whole.length - 3, by omega⟩
  have hstr : readValue? (fuel + 1) 125 (quoted ++ ['}', '}']) = some (.str s, ['}', '}']) :=
    readValue?_str fuel 125 s ['}', '}']
  have hinside : readValue? (fuel + 1 + 2) 126 (inside ++ ['}']) =
      some (.obj [(inner, .str s)], ['}']) := by
    rw [hquoted] at hstr
    have hfield := readValue?_field inner (by decide) hstr
    simpa [inside, hquoted] using hfield
  have hwhole : readValue? (fuel + 1 + 2 + 2) 127 whole =
      some (.obj [(outer, .obj [(inner, .str s)])], []) :=
    readValue?_field outer (by decide) hinside
  unfold ofText? read?
  rw [htext]
  have hfirst : skipBlank whole = whole := skipBlank_cons (by decide)
  simp only [hfirst, hfuel, documentDepth, hwhole]
  rfl

end Json
end ActionTree
