/-
# How deep the parser descends

The parser of conditionals is started again inside of itself: behind a parenthesis, behind
a bracket, and on both sides of a colon. Here it is listed where it is started on its way
over a row, and how many of its runs are open then, whether the row is an expression or
not. There is never more than one for each bracket that is open and each question mark that
was passed (`Expr.counted_startsTernary`), so the count that is taken before a text is
parsed bounds the depth of the descent, and a parser that may not descend deeper than that
does not miss anything (`Expr.takeTernary_congr`).

Key definitions: `Expr.Start`, `Expr.startsTernary`.
Key theorems: `Expr.counted_startsTernary`, `Expr.takeTernary_congr`,
`Expr.descent_bounded`.
-/
import ActionTree.Proofs.Expr.Nesting
import ActionTree.Proofs.Expr.Parsing

namespace ActionTree
namespace Expr

open Grammar
open Nesting (Count Keeps)

/-! ### Where the parser is started -/

/-- A start of the parser of conditionals: how many of its runs are open then, this one
among them, and the row in front of which it stands. -/
structure Start where
  opened : Nat
  row : List Token

/-- The starts on the way over a row. -/
abbrev Starts := List Token → List Start

/-- The starts inside a primary expression: those of the conditional in parentheses. -/
def startsPrimary (starts : Starts) : Starts
  | .openParen :: rest => starts rest
  | _ => []

/-- The starts inside the accesses that follow: those of the conditionals in brackets. -/
def startsAccesses (inner : Parser) (starts : Starts) : Nat → Starts
  | fuel + 1, .dot :: .ident _ :: rest => startsAccesses inner starts fuel rest
  | fuel + 1, .openBracket :: rest =>
    starts rest ++ match inner rest with
      | some (_, .closeBracket :: rest) => startsAccesses inner starts fuel rest
      | _ => []
  | _, _ => []

/-- The starts inside a primary expression with accesses. -/
def startsAccessed (inner : Parser) (starts : Starts) : Starts := fun tokens =>
  startsPrimary starts tokens ++ match takePrimary inner tokens with
    | some (_, rest) => startsAccesses inner starts rest.length rest
    | none => []

/-- The starts inside an operand with operators in front. -/
def startsPrefixed (inner : Parser) (starts : Starts) : Starts
  | .not :: rest => startsPrefixed inner starts rest
  | .op .sub :: rest => startsPrefixed inner starts rest
  | tokens => startsAccessed inner starts tokens

/-- The starts inside the operands that follow the first one of a chain. -/
def startsChain (level : List BinaryOp) (operand : Parser) (starts : Starts) : Nat → Starts
  | fuel + 1, .op op :: rest =>
    if op ∈ level then
      starts rest ++ match operand rest with
        | some (_, rest) => startsChain level operand starts fuel rest
        | none => []
    else []
  | _, _ => []

/-- The starts inside operands joined by operators of the given levels. -/
def startsJoined (operand : Parser) (starts : Starts) : List (List BinaryOp) → Starts
  | [] => starts
  | level :: tighter => fun tokens =>
    startsJoined operand starts tighter tokens ++ match takeJoined operand tighter tokens with
      | some (_, rest) => startsChain level (takeJoined operand tighter)
          (startsJoined operand starts tighter) rest.length rest
      | none => []

/-- The starts on the way over a conditional, beginning with its own, if so many are open
with it. One that is not allowed any more is listed too. Where a parser fails, the row is
refused: nothing around it could take the token that it failed at, so there is no other
start behind a failure. -/
def startsTernary : Nat → Nat → Starts
  | opened, 0 => fun tokens => [⟨opened, tokens⟩]
  | opened, depth + 1 => fun tokens =>
    let inner := takeTernary depth
    let starts := startsTernary (opened + 1) depth
    ⟨opened, tokens⟩ ::
      (startsJoined (takePrefixed inner) (startsPrefixed inner starts) levels tokens ++
        match takeJoined (takePrefixed inner) levels tokens with
        | some (_, .question :: rest) =>
          starts rest ++ match inner rest with
            | some (_, .colon :: rest) => starts rest
            | _ => []
        | _ => [])

/-! ### Not more than the count -/

/-- A start behind tokens over which the count rises at least as much as the number of open
runs does. -/
def Start.Counted (opened : Nat) (row : List Token) (start : Start) : Prop :=
  ∃ before, row = before ++ start.row ∧
    ∀ count : Count, start.opened + count.total ≤ opened + (count.behind before).total

/-- The starts on the way over any row are counted. -/
def Counted (opened : Nat) (starts : Starts) : Prop :=
  ∀ row, ∀ start ∈ starts row, start.Counted opened row

namespace Start.Counted

variable {opened : Nat} {row : List Token} {start : Start}

theorem here (opened : Nat) (row : List Token) : Counted opened row ⟨opened, row⟩ :=
  ⟨[], rfl, fun _ => Nat.le_refl _⟩

theorem behind_opening (h : start.Counted (opened + 1) row) {token : Token}
    (ht : ∀ count : Count, (count.after token).total = count.total + 1) :
    start.Counted opened (token :: row) := by
  obtain ⟨before, rfl, hb⟩ := h
  refine ⟨token :: before, rfl, fun count => ?_⟩
  have hcount := hb (count.after token)
  rw [ht] at hcount
  rw [Count.behind_cons]
  omega

theorem behind_kept (h : start.Counted opened row) {taken : List Token} (hk : Keeps taken) :
    start.Counted opened (taken ++ row) := by
  obtain ⟨before, rfl, hb⟩ := h
  refine ⟨taken ++ before, (List.append_assoc ..).symm, fun count => ?_⟩
  have hcount := hb (count.behind taken)
  obtain ⟨hbrackets, hquestions⟩ := hk count
  rw [Count.behind_append]
  simp only [Count.total] at hcount ⊢
  omega

end Start.Counted

/-- A parser takes nothing but rows over which the count is kept. -/
def Keeping (parser : Parser) : Prop :=
  ∀ ⦃row : List Token⦄ ⦃built : Built⦄ ⦃rest : List Token⦄, parser row = some (built, rest) →
    ∃ taken, row = taken ++ rest ∧ Keeps taken

theorem keeping_of_sound {p : Phrase} {parser : Parser} (h : Sound p parser) :
    Keeping parser := by
  intro row built rest hr
  obtain ⟨taken, htaken, hderives⟩ := h hr
  exact ⟨taken, htaken, hderives.keeps⟩

theorem keeping_takeChain {level : List BinaryOp} {operand : Parser} (ho : Keeping operand)
    (fuel : Nat) (left : Built) : Keeping (takeChain level operand fuel left) := by
  intro row
  fun_induction takeChain level operand fuel left row with
  | case1 fuel left op rest hop right rest' hr ih =>
    intro built last h
    obtain ⟨taken, rfl, hk⟩ := ho hr
    obtain ⟨more, rfl, hk'⟩ := ih h
    have hsign : Keeps [.op op] := .one fun _ => rfl
    exact ⟨[.op op] ++ (taken ++ more), by simp, hsign.append (hk.append hk')⟩
  | case2 => intro _ _ h; cases h
  | case3 | case4 =>
    intro built last h
    cases h
    exact ⟨[], rfl, fun _ => ⟨rfl, Nat.le_refl _⟩⟩

theorem keeping_takeJoined {operand : Parser} (ho : Keeping operand)
    (levels : List (List BinaryOp)) : Keeping (takeJoined operand levels) := by
  induction levels with
  | nil => exact ho
  | cons level tighter ih =>
    intro row built rest h
    unfold takeJoined at h
    split at h
    · rename_i hr
      obtain ⟨taken, rfl, hk⟩ := ih hr
      obtain ⟨more, rfl, hk'⟩ := keeping_takeChain ih _ _ h
      exact ⟨taken ++ more, by simp, hk.append hk'⟩
    · cases h

section

variable {opened : Nat} {inner operand : Parser} {starts : Starts}

theorem counted_startsPrimary (h : Counted (opened + 1) starts) :
    Counted opened (startsPrimary starts) := by
  intro row start hs
  unfold startsPrimary at hs
  split at hs
  · exact (h _ start hs).behind_opening fun count => Nat.add_right_comm ..
  · cases hs

theorem counted_startsAccesses (hi : Keeping inner) (h : Counted (opened + 1) starts)
    (fuel : Nat) : Counted opened (startsAccesses inner starts fuel) := by
  intro row
  fun_induction startsAccesses inner starts fuel row with
  | case1 fuel name rest ih =>
    intro start hs
    have hname : Keeps [.dot, .ident name] := .append (.one fun _ => rfl) (.one fun _ => rfl)
    exact (ih start hs).behind_kept hname
  | case2 fuel rest ih =>
    intro start hs
    rcases List.mem_append.1 hs with hfirst | hmore
    · exact (h _ start hfirst).behind_opening fun count => Nat.add_right_comm ..
    · split at hmore
      · rename_i position rest' hr
        obtain ⟨taken, rfl, hk⟩ := hi hr
        have hposition : Keeps (.openBracket :: (taken ++ [.closeBracket])) :=
          hk.enclosed (fun _ => rfl) fun _ => rfl
        simpa using (ih rest' start hmore).behind_kept hposition
      · cases hmore
  | case3 => intro start hs; cases hs

theorem counted_startsAccessed (hi : Keeping inner) (hp : Keeping (takePrimary inner))
    (h : Counted (opened + 1) starts) : Counted opened (startsAccessed inner starts) := by
  intro row start hs
  rcases List.mem_append.1 hs with hfirst | hmore
  · exact counted_startsPrimary h row start hfirst
  · split at hmore
    · rename_i hr
      obtain ⟨taken, rfl, hk⟩ := hp hr
      exact (counted_startsAccesses hi h _ _ start hmore).behind_kept hk
    · cases hmore

theorem counted_startsPrefixed (hi : Keeping inner) (hp : Keeping (takePrimary inner))
    (h : Counted (opened + 1) starts) : Counted opened (startsPrefixed inner starts) := by
  intro row
  fun_induction startsPrefixed inner starts row with
  | case1 rest ih =>
    intro start hs
    have hsign : Keeps [.not] := .one fun _ => rfl
    exact (ih start hs).behind_kept hsign
  | case2 rest ih =>
    intro start hs
    have hsign : Keeps [.op .sub] := .one fun _ => rfl
    exact (ih start hs).behind_kept hsign
  | case3 => exact counted_startsAccessed hi hp h _

theorem counted_startsChain (ho : Keeping operand) (h : Counted opened starts)
    (level : List BinaryOp) (fuel : Nat) :
    Counted opened (startsChain level operand starts fuel) := by
  intro row
  fun_induction startsChain level operand starts fuel row with
  | case1 fuel op rest hop ih =>
    intro start hs
    have hsign : Keeps [.op op] := .one fun _ => rfl
    refine Start.Counted.behind_kept ?_ hsign
    rcases List.mem_append.1 hs with hfirst | hmore
    · exact h _ start hfirst
    · split at hmore
      · rename_i hr
        obtain ⟨taken, rfl, hk⟩ := ho hr
        exact (ih _ start hmore).behind_kept hk
      · cases hmore
  | case2 | case3 => intro start hs; cases hs

theorem counted_startsJoined (ho : Keeping operand) (h : Counted opened starts)
    (levels : List (List BinaryOp)) : Counted opened (startsJoined operand starts levels) := by
  induction levels with
  | nil => exact h
  | cons level tighter ih =>
    intro row start hs
    rcases List.mem_append.1 hs with hfirst | hmore
    · exact ih row start hfirst
    · split at hmore
      · rename_i hr
        obtain ⟨taken, rfl, hk⟩ := keeping_takeJoined ho tighter hr
        exact (counted_startsChain (keeping_takeJoined ho tighter) ih level _ _ start
          hmore).behind_kept hk
      · cases hmore

end

/-- **No more runs are open than the count says**, whether the row is an expression or
not. -/
theorem counted_startsTernary (opened depth : Nat) : Counted opened (startsTernary opened depth) := by
  induction depth generalizing opened with
  | zero =>
    intro row start hs
    cases List.mem_singleton.1 hs
    exact .here opened row
  | succ depth ih =>
    have hsound := sound_takeTernary depth
    have hi := keeping_of_sound hsound
    have hoperand := keeping_of_sound (sound_takePrefixed hsound)
    have hprimary := keeping_of_sound (sound_takePrimary hsound)
    intro row start hs
    rcases List.mem_cons.1 hs with rfl | hs
    · exact .here opened row
    rcases List.mem_append.1 hs with hcondition | hbranches
    · exact counted_startsJoined hoperand (counted_startsPrefixed hi hprimary (ih (opened + 1)))
        levels row start hcondition
    split at hbranches
    · rename_i condition rest hr
      obtain ⟨taken, rfl, hk⟩ := keeping_takeJoined hoperand levels hr
      refine Start.Counted.behind_kept (Start.Counted.behind_opening ?_ fun count => rfl) hk
      rcases List.mem_append.1 hbranches with hconsequent | halternate
      · exact ih (opened + 1) rest start hconsequent
      split at halternate
      · rename_i consequent rest' hr'
        obtain ⟨taken', rfl, hk'⟩ := hi hr'
        have hcolon : Keeps [.colon] := .one fun _ => rfl
        simpa using (ih (opened + 1) rest' start halternate).behind_kept (hk'.append hcolon)
      · cases halternate
    · cases hbranches

/-! ### Nothing but the starts matters -/

/-- Two parsers do the same on every row on which all starts are allowed. -/
def Agree (allowed : Start → Prop) (starts : Starts) (parser parser' : Parser) : Prop :=
  ∀ row, (∀ start ∈ starts row, allowed start) → parser row = parser' row

section

variable {allowed : Start → Prop} {inner inner' operand operand' : Parser} {starts : Starts}

theorem agree_takePrimary (h : Agree allowed starts inner inner') :
    Agree allowed (startsPrimary starts) (takePrimary inner) (takePrimary inner') := by
  intro row ha
  cases row with
  | nil => rfl
  | cons token rest =>
    cases token with
    | openParen => simp only [takePrimary, h rest ha]
    | _ => rfl

theorem agree_takeAccesses (h : Agree allowed starts inner inner') (fuel : Nat) (object : Built) :
    Agree allowed (startsAccesses inner starts fuel) (takeAccesses inner fuel object)
      (takeAccesses inner' fuel object) := by
  intro row
  fun_induction takeAccesses inner fuel object row with
  | case1 fuel object name rest ih =>
    intro ha
    rw [ih ha, takeAccesses]
  | case2 fuel object rest position rest' hr ih =>
    intro ha
    rw [startsAccesses, hr] at ha
    obtain ⟨hfirst, hmore⟩ := List.forall_mem_append.1 ha
    rw [ih hmore, takeAccesses, ← h rest hfirst, hr]
  | case3 fuel object rest hr =>
    intro ha
    rw [startsAccesses] at ha
    rw [takeAccesses, ← h rest (List.forall_mem_append.1 ha).1]
    split
    · rename_i hr'
      exact absurd hr' (hr _ _)
    · rfl
  | case4 fuel object row hdot hbracket =>
    intro _
    unfold takeAccesses
    split
    · exact (hdot _ _ _ rfl rfl).elim
    · exact (hbracket _ _ rfl rfl).elim
    · rfl

theorem agree_takeAccessed (h : Agree allowed starts inner inner') :
    Agree allowed (startsAccessed inner starts) (takeAccessed inner) (takeAccessed inner') := by
  intro row ha
  obtain ⟨hfirst, hmore⟩ := List.forall_mem_append.1 ha
  unfold takeAccessed
  rw [← agree_takePrimary h row hfirst]
  cases hr : takePrimary inner row with
  | none => rfl
  | some taken =>
    rw [hr] at hmore
    exact agree_takeAccesses h _ _ _ hmore

theorem agree_takePrefixed (h : Agree allowed starts inner inner') :
    Agree allowed (startsPrefixed inner starts) (takePrefixed inner) (takePrefixed inner') := by
  intro row
  fun_induction takePrefixed inner row with
  | case1 rest ih | case2 rest ih =>
    intro ha
    rw [ih ha, takePrefixed]
  | case3 row hnot hneg =>
    intro ha
    unfold takePrefixed
    split
    · exact (hnot _ rfl).elim
    · exact (hneg _ rfl).elim
    · refine agree_takeAccessed h row ?_
      unfold startsPrefixed at ha
      split at ha
      · exact (hnot _ rfl).elim
      · exact (hneg _ rfl).elim
      · exact ha

theorem agree_takeChain (ho : Agree allowed starts operand operand') (level : List BinaryOp)
    (fuel : Nat) (left : Built) :
    Agree allowed (startsChain level operand starts fuel) (takeChain level operand fuel left)
      (takeChain level operand' fuel left) := by
  intro row
  fun_induction takeChain level operand fuel left row with
  | case1 fuel left op rest hop right rest' hr ih =>
    intro ha
    rw [startsChain, if_pos hop, hr] at ha
    obtain ⟨hfirst, hmore⟩ := List.forall_mem_append.1 ha
    rw [ih hmore, takeChain, if_pos hop, ← ho rest hfirst, hr]
  | case2 fuel left op rest hop hr =>
    intro ha
    rw [startsChain, if_pos hop] at ha
    rw [takeChain, if_pos hop, ← ho rest (List.forall_mem_append.1 ha).1, hr]
  | case3 fuel left op rest hop =>
    intro _
    rw [takeChain, if_neg hop]
  | case4 fuel left row hop =>
    intro _
    unfold takeChain
    split
    · exact (hop _ _ _ rfl rfl).elim
    · rfl

theorem agree_takeJoined (ho : Agree allowed starts operand operand')
    (levels : List (List BinaryOp)) :
    Agree allowed (startsJoined operand starts levels) (takeJoined operand levels)
      (takeJoined operand' levels) := by
  induction levels with
  | nil => exact ho
  | cons level tighter ih =>
    intro row ha
    obtain ⟨hfirst, hmore⟩ := List.forall_mem_append.1 ha
    unfold takeJoined
    rw [← ih row hfirst]
    cases hr : takeJoined operand tighter row with
    | none => rfl
    | some taken =>
      rw [hr] at hmore
      exact agree_takeChain ih level _ _ _ hmore

end

/-- **A bound on the depth that no start exceeds changes nothing.** -/
theorem takeTernary_congr (opened : Nat) {bound depth : Nat} (hd : bound ≤ depth) :
    Agree (fun start => start.opened < opened + bound) (startsTernary opened depth)
      (takeTernary depth) (takeTernary bound) := by
  induction bound generalizing opened depth with
  | zero =>
    intro row ha
    have hhere : ⟨opened, row⟩ ∈ startsTernary opened depth row := by
      cases depth <;> exact List.mem_cons_self
    exact absurd (ha _ hhere) (Nat.lt_irrefl _)
  | succ bound ih =>
    obtain ⟨depth, rfl⟩ : ∃ d, depth = d + 1 := ⟨depth - 1, by omega⟩
    intro row ha
    have hinner := ih (opened + 1) (Nat.le_of_succ_le_succ hd)
    rw [Nat.add_right_comm] at hinner
    obtain ⟨-, ha⟩ := List.forall_mem_cons.1 ha
    obtain ⟨hcondition, hbranches⟩ := List.forall_mem_append.1 ha
    unfold takeTernary
    rw [← agree_takeJoined (agree_takePrefixed hinner) levels row hcondition]
    split
    · rename_i condition rest hr
      rw [hr] at hbranches
      obtain ⟨hconsequent, halternate⟩ := List.forall_mem_append.1 hbranches
      rw [← hinner rest hconsequent]
      split
      · rename_i consequent rest' hr'
        rw [hr'] at halternate
        rw [← hinner rest' halternate]
      · rfl
    · rfl

/-! ### Whole rows and texts -/

/-- One run more than there are tokens is never open. -/
theorem takeTernary_of_length_lt {row : List Token} {depth : Nat} (h : row.length < depth) :
    takeTernary depth row = takeTernary (row.length + 1) row := by
  refine takeTernary_congr 1 h row fun start hs => ?_
  obtain ⟨before, hrow, hb⟩ := counted_startsTernary 1 depth row start hs
  have hcount : start.opened + 0 ≤ 1 + (Count.behind ⟨0, 0⟩ before).total := hb ⟨0, 0⟩
  have htotal : (Count.behind ⟨0, 0⟩ before).total ≤ 0 + before.length :=
    Count.total_behind_le_length ⟨0, 0⟩ before
  have hlength := congrArg List.length hrow
  rw [List.length_append] at hlength
  omega

/-- So a row is parsed as with any depth above the number of its tokens. -/
theorem ofTokens?_eq_within {row : List Token} {depth : Nat} (h : row.length < depth) :
    ofTokens? row = ofTokensWithin? depth row := by
  rw [ofTokens?, ofTokensWithin?, ofTokensWithin?, takeTernary_of_length_lt h]

theorem within_of_checkLimits {source : String} (h : checkLimits source = .ok ()) :
    Nesting.within maxNesting .outside 0 0 source.toList = true := by
  unfold checkLimits at h
  split at h
  · cases h
  · split at h
    · assumption
    · cases h

/-- Within the limits of the text no start goes beyond them. -/
theorem opened_le_of_checkLimits {source : String} (h : checkLimits source = .ok ()) {depth : Nat}
    {start : Start} (hs : start ∈ startsTernary 1 depth (Token.ofChars source.toList)) :
    ∃ before, Token.ofChars source.toList = before ++ start.row ∧
      start.opened ≤ 1 + (Count.behind ⟨0, 0⟩ before).total ∧
      (Count.behind ⟨0, 0⟩ before).total ≤ maxNesting := by
  obtain ⟨before, hrow, hb⟩ := counted_startsTernary 1 depth _ start hs
  exact ⟨before, hrow, hb ⟨0, 0⟩,
    total_behind_le _ (Nat.zero_le _) (within_of_checkLimits h) hrow⟩

/-- **The limit on the text bounds the descent.** Over any text that keeps it, an expression
or not, the parser of conditionals is never started while more than `maxNesting` of its runs
are open: one, and one for each level that the text has opened so far at most. A parser that
gives up there returns what one without such a bound returns. -/
theorem descent_bounded (source : String) (h : checkLimits source = .ok ()) :
    let row := Token.ofChars source.toList
    (∀ depth, ∀ start ∈ startsTernary 1 depth row, ∃ before, row = before ++ start.row ∧
      start.opened ≤ 1 + (Count.behind ⟨0, 0⟩ before).total ∧
      start.opened ≤ maxNesting + 1) ∧
    (∀ depth, maxNesting + 1 ≤ depth →
      takeTernary depth row = takeTernary (maxNesting + 1) row) ∧
    ofTokens? row = ofTokensWithin? (maxNesting + 1) row := by
  intro row
  have hopened : ∀ depth, ∀ start ∈ startsTernary 1 depth row, ∃ before,
      row = before ++ start.row ∧ start.opened ≤ 1 + (Count.behind ⟨0, 0⟩ before).total ∧
      start.opened ≤ maxNesting + 1 := by
    intro depth start hs
    obtain ⟨before, hrow, hcount, htotal⟩ := opened_le_of_checkLimits h hs
    exact ⟨before, hrow, hcount, by omega⟩
  have hdepth : ∀ depth, maxNesting + 1 ≤ depth →
      takeTernary depth row = takeTernary (maxNesting + 1) row := by
    intro depth hd
    refine takeTernary_congr 1 hd row fun start hs => ?_
    obtain ⟨-, -, -, hle⟩ := hopened depth start hs
    exact Nat.lt_of_le_of_lt hle (Nat.lt_add_of_pos_left Nat.one_pos)
  refine ⟨hopened, hdepth, ?_⟩
  have hlarge : row.length < row.length + 1 + (maxNesting + 1) := by omega
  rw [ofTokens?_eq_within hlarge, ofTokensWithin?, ofTokensWithin?, hdepth _ (by omega)]

/-- Sixteen parentheses that are never closed: a text that just keeps the limit, and over
which the parser descends as deep as it may. -/
theorem descent_bounded_unclosed :
    let source := String.ofList (List.replicate 16 '(' ++ ['a'])
    let row := Token.ofChars source.toList
    checkLimits source = .ok () ∧
      (startsTernary 1 (row.length + 1) row).map Start.opened = List.range' 1 17 ∧
      ofTokensWithin? 17 row = ofTokens? row := by
  intro source row
  have htext : source.toList = List.replicate 16 '(' ++ ['a'] := String.toList_ofList
  have hsize : ¬ maxSourceBytes < source.utf8ByteSize := by decide
  have hlimits : checkLimits source = .ok () := by
    rw [checkLimits, if_neg hsize, htext]; rfl
  have hopened : (startsTernary 1 (row.length + 1) row).map Start.opened = List.range' 1 17 := by
    simp only [row, htext]
    rfl
  exact ⟨hlimits, hopened, (descent_bounded source hlimits).2.2.symm⟩

end Expr
end ActionTree
