/-
# The parser follows the grammar

On rows of tokens the parser and the rules of the grammar agree. What a parser
takes off a row is a phrase of its sort (`sound_takeTernary`). A phrase in front of a
row is taken as a whole, if the row does not continue it (`reads_of_derives`):
the loops of the parser apply accesses and operators one by one, so a phrase read
up to some place is a loop that goes on from there (`Phrase.resume`), and this is
what the induction on the rules carries.

Key definitions: `Grammar.Phrase.parser`, `Grammar.Phrase.Ends`,
`Grammar.Phrase.resume`.
Key theorems: `Grammar.sound_takeTernary`, `Grammar.reads_of_derives`,
`Expr.ofTokens?_eq_some_iff`.
-/
import ActionTree.Proofs.Expr.Grammar
import ActionTree.Proofs.Expr.Heights

namespace ActionTree
namespace Grammar

open ActionTree.Expr

/-! ### Parsers of phrases -/

/-- The levels of operators inside a phrase, outside of parentheses. -/
def Phrase.levels : Phrase → List (List BinaryOp)
  | conditional | disjunction => Expr.levels
  | conjunction => Expr.levels.drop 1
  | equality => Expr.levels.drop 2
  | comparison => Expr.levels.drop 3
  | sum => Expr.levels.drop 4
  | product => Expr.levels.drop 5
  | prefixed | accessed | primary => []

/-- The parser of a sort of phrases, inside of which at most `depth` conditionals
may be open at once. -/
def Phrase.parser (depth : Nat) : Phrase → Parser
  | conditional => takeTernary (depth + 1)
  | accessed => takeAccessed (takeTernary depth)
  | primary => takePrimary (takeTernary depth)
  | p => takeJoined (takePrefixed (takeTernary depth)) p.levels

theorem Phrase.levels_of_chain? {p q : Phrase} {ops : List BinaryOp}
    (h : p.chain? = some (ops, q)) : p.levels = ops :: q.levels := by
  cases p <;> simp only [chain?, Option.some.injEq, Prod.mk.injEq, reduceCtorEq] at h <;>
    obtain ⟨rfl, rfl⟩ := h <;> rfl

/-- A phrase with operators is read as its first part and a loop over the operators. -/
theorem Phrase.parser_of_chain? {p q : Phrase} {ops : List BinaryOp}
    (h : p.chain? = some (ops, q)) (depth : Nat) (tokens : List Token) :
    p.parser depth tokens = match q.parser depth tokens with
      | some (left, rest) => takeChain ops (q.parser depth) rest.length left rest
      | none => none := by
  cases p <;> simp only [chain?, Option.some.injEq, Prod.mk.injEq, reduceCtorEq] at h <;>
    obtain ⟨rfl, rfl⟩ := h <;> rfl

/-! ### What a parser takes is a phrase -/

/-- A parser takes nothing but phrases of a sort. -/
def Sound (p : Phrase) (parser : Parser) : Prop :=
  ∀ ⦃tokens : List Token⦄ ⦃built : Built⦄ ⦃rest : List Token⦄,
    parser tokens = some (built, rest) → ∃ row, tokens = row ++ rest ∧ OfTokens p row built.expr

theorem sound_takePrimary {inner : Parser} (hi : Sound .conditional inner) :
    Sound .primary (takePrimary inner) := by
  intro tokens built rest h
  unfold takePrimary at h
  split at h
  · cases h; exact ⟨[.null], rfl, .null rfl⟩
  · cases h; exact ⟨[.bool _], rfl, .bool rfl⟩
  · cases h; exact ⟨[.num _], rfl, .num rfl⟩
  · cases h; exact ⟨[.str _], rfl, .str rfl⟩
  · cases h; exact ⟨[.ident _], rfl, .ident rfl⟩
  · split at h
    · rename_i hr
      cases h
      obtain ⟨row, rfl, hrow⟩ := hi hr
      exact ⟨_, by simp, .parens rfl rfl hrow rfl rfl⟩
    · cases h
  · cases h

theorem sound_takeAccesses {inner : Parser} (hi : Sound .conditional inner) (fuel : Nat)
    (object : Built) (tokens : List Token) :
    ∀ {before : List Token} {built : Built} {rest : List Token},
    OfTokens .accessed before object.expr →
    takeAccesses inner fuel object tokens = some (built, rest) →
    ∃ row, tokens = row ++ rest ∧ OfTokens .accessed (before ++ row) built.expr := by
  fun_induction takeAccesses inner fuel object tokens with
  | case1 fuel object name tokens ih =>
    intro before built rest hb h
    obtain ⟨row, rfl, hrow⟩ := ih (.member hb rfl rfl rfl rfl) h
    exact ⟨.dot :: .ident name :: row, rfl, by simpa using hrow⟩
  | case2 fuel object tokens position tokens' hr ih =>
    intro before built rest hb h
    obtain ⟨inside, rfl, hinside⟩ := hi hr
    obtain ⟨row, rfl, hrow⟩ := ih (.index hb rfl rfl rfl hinside rfl rfl) h
    exact ⟨.openBracket :: (inside ++ .closeBracket :: row), by simp, by simpa using hrow⟩
  | case3 => intro _ _ _ _ h; cases h
  | case4 =>
    intro before built rest hb h
    cases h
    exact ⟨[], rfl, by simpa using hb⟩

theorem sound_takeAccessed {inner : Parser} (hi : Sound .conditional inner) :
    Sound .accessed (takeAccessed inner) := by
  intro tokens built rest h
  unfold takeAccessed at h
  split at h
  · rename_i hp
    obtain ⟨before, rfl, hb⟩ := sound_takePrimary hi hp
    obtain ⟨row, rfl, hrow⟩ := sound_takeAccesses hi _ _ _ (.object hb) h
    exact ⟨before ++ row, by simp, hrow⟩
  · cases h

theorem sound_takePrefixed {inner : Parser} (hi : Sound .conditional inner) :
    Sound .prefixed (takePrefixed inner) := by
  intro tokens
  fun_induction takePrefixed inner tokens with
  | case1 tokens ih =>
    intro built rest h
    obtain ⟨⟨operand, rest'⟩, hr, h⟩ := Option.map_eq_some_iff.1 h
    cases h
    obtain ⟨row, rfl, hrow⟩ := ih hr
    exact ⟨_, by simp, .not rfl rfl hrow⟩
  | case2 tokens ih =>
    intro built rest h
    obtain ⟨⟨operand, rest'⟩, hr, h⟩ := Option.map_eq_some_iff.1 h
    cases h
    obtain ⟨row, rfl, hrow⟩ := ih hr
    exact ⟨_, by simp, .neg rfl rfl hrow⟩
  | case3 =>
    intro built rest h
    obtain ⟨row, rfl, hrow⟩ := sound_takeAccessed hi h
    exact ⟨row, rfl, .operand hrow⟩

theorem sound_takeChain {p q : Phrase} {ops : List BinaryOp} {operand : Parser}
    (hp : p.chain? = some (ops, q)) (hq : Sound q operand) (fuel : Nat) (left : Built)
    (tokens : List Token) : ∀ {before : List Token} {built : Built} {rest : List Token},
    OfTokens p before left.expr → takeChain ops operand fuel left tokens = some (built, rest) →
    ∃ row, tokens = row ++ rest ∧ OfTokens p (before ++ row) built.expr := by
  fun_induction takeChain ops operand fuel left tokens with
  | case1 fuel left op tokens hop right tokens' hr ih =>
    intro before built rest hb h
    obtain ⟨inside, rfl, hinside⟩ := hq hr
    obtain ⟨row, rfl, hrow⟩ := ih (.joined hp hb rfl hop rfl rfl hinside) h
    exact ⟨.op op :: (inside ++ row), by simp, by simpa using hrow⟩
  | case2 => intro _ _ _ _ h; cases h
  | case3 | case4 =>
    intro before built rest hb h
    cases h
    exact ⟨[], rfl, by simpa using hb⟩

theorem sound_of_chain? {p q : Phrase} {ops : List BinaryOp} (hp : p.chain? = some (ops, q))
    {depth : Nat} (hq : Sound q (q.parser depth)) : Sound p (p.parser depth) := by
  intro tokens built rest h
  rw [Phrase.parser_of_chain? hp] at h
  split at h
  · rename_i hr
    obtain ⟨before, rfl, hb⟩ := hq hr
    obtain ⟨row, rfl, hrow⟩ := sound_takeChain hp hq _ _ _ (.part hp hb) h
    exact ⟨before ++ row, by simp, hrow⟩
  · cases h

theorem sound_disjunction {depth : Nat} (hi : Sound .conditional (takeTernary depth)) :
    Sound .disjunction (Phrase.disjunction.parser depth) := by
  have hprefixed : Sound .prefixed (Phrase.prefixed.parser depth) := sound_takePrefixed hi
  have hproduct : Sound .product (Phrase.product.parser depth) := sound_of_chain? rfl hprefixed
  have hsum : Sound .sum (Phrase.sum.parser depth) := sound_of_chain? rfl hproduct
  have hcomparison : Sound .comparison (Phrase.comparison.parser depth) := sound_of_chain? rfl hsum
  have hequality : Sound .equality (Phrase.equality.parser depth) :=
    sound_of_chain? rfl hcomparison
  have hconjunction : Sound .conjunction (Phrase.conjunction.parser depth) :=
    sound_of_chain? rfl hequality
  exact sound_of_chain? rfl hconjunction

/-- **What the parser takes is a conditional.** -/
theorem sound_takeTernary : ∀ depth : Nat, Sound .conditional (takeTernary depth)
  | 0 => fun _ _ _ h => by cases h
  | depth + 1 => by
    have hi := sound_takeTernary depth
    intro tokens built rest h
    unfold takeTernary at h
    split at h
    · rename_i condition tokens₁ hc
      obtain ⟨row, rfl, hrow⟩ := sound_disjunction hi hc
      split at h
      · rename_i consequent tokens₂ ha
        obtain ⟨row', rfl, hrow'⟩ := hi ha
        split at h
        · rename_i hb
          cases h
          obtain ⟨row'', rfl, hrow''⟩ := hi hb
          exact ⟨_, by simp, .ternary hrow rfl rfl rfl hrow' rfl rfl rfl hrow''⟩
        · cases h
      · cases h
    · obtain ⟨row, rfl, hrow⟩ := sound_disjunction hi h
      exact ⟨row, rfl, .plain hrow⟩

/-! ### Phrases are taken as a whole -/

/-- The tokens that continue a phrase of a sort when they stand behind one. -/
def Phrase.Continues (p : Phrase) : Token → Prop
  | .dot | .openBracket => p ≠ primary
  | .op op => op ∈ p.levels.flatten
  | .question => p = conditional
  | _ => False

/-- What follows does not continue a phrase of a sort. -/
def Phrase.Ends (p : Phrase) (rest : List Token) : Prop :=
  ∀ token ∈ rest.head?, ¬ p.Continues token

/-- The phrases whose end the loop of a phrase waits for; the phrase itself where
there is no loop. -/
def Phrase.part : Phrase → Phrase
  | disjunction => conjunction
  | conjunction => equality
  | equality => comparison
  | comparison => sum
  | sum => product
  | product => prefixed
  | accessed => primary
  | p => p

theorem Phrase.part_of_chain? {p q : Phrase} {ops : List BinaryOp}
    (h : p.chain? = some (ops, q)) : p.part = q := by
  cases p <;> simp only [chain?, Option.some.injEq, Prod.mk.injEq, reduceCtorEq] at h <;>
    exact h.2

/-- No operator belongs to two levels. -/
theorem Phrase.nodup_levels (p : Phrase) : p.levels.flatten.Nodup := by
  cases p <;> decide

/-- What continues a part of a phrase continues the phrase. -/
theorem Phrase.Continues.of_part {p : Phrase} {token : Token} (h : p.part.Continues token) :
    p.Continues token := by
  cases token with
  | dot | openBracket =>
    rintro rfl
    exact h rfl
  | op op =>
    cases hp : p.chain? with
    | some part =>
      rw [Continues, part_of_chain? hp] at h
      rw [Continues, levels_of_chain? hp]
      exact List.mem_append_right _ h
    | none =>
      cases p with
      | conditional | prefixed | accessed | primary => exact h
      | _ => cases hp
  | question =>
    cases p with
    | conditional => rfl
    | _ => cases h
  | _ => exact h

theorem Phrase.Ends.part {p : Phrase} {rest : List Token} (h : p.Ends rest) : p.part.Ends rest :=
  fun token ht hc => h token ht hc.of_part

theorem Phrase.Ends.disjunction {rest : List Token} (h : conditional.Ends rest) :
    disjunction.Ends rest := by
  intro token ht hc
  refine h token ht ?_
  cases token <;> simp_all [Continues, levels]

theorem Phrase.Ends.accessed {rest : List Token} (h : prefixed.Ends rest) :
    accessed.Ends rest := by
  intro token ht hc
  refine h token ht ?_
  cases token <;> simp_all [Continues, levels]

/-- An operator of a phrase continues none of its parts. -/
theorem Phrase.ends_of_mem {p q : Phrase} {ops : List BinaryOp} (h : p.chain? = some (ops, q))
    {op : BinaryOp} (hop : op ∈ ops) (rest : List Token) : q.Ends (.op op :: rest) := by
  intro token ht hc
  cases Option.mem_some.1 ht
  have hn := p.nodup_levels
  rw [levels_of_chain? h, List.flatten_cons, List.nodup_append] at hn
  exact hn.2.2 op hop op hc rfl

/-- How the parser of a phrase goes on when it has read one: in its loop, if it has
one. -/
def Phrase.resume (p : Phrase) (depth fuel : Nat) (built : Built) (rest : List Token) :
    Option (Built × List Token) :=
  match p.chain? with
  | some (ops, q) => takeChain ops (q.parser depth) fuel built rest
  | none => match p with
    | accessed => takeAccesses (takeTernary depth) fuel built rest
    | _ => some (built, rest)

theorem Phrase.resume_of_chain? {p q : Phrase} {ops : List BinaryOp}
    (h : p.chain? = some (ops, q)) (depth fuel : Nat) (built : Built) (rest : List Token) :
    p.resume depth fuel built rest = takeChain ops (q.parser depth) fuel built rest := by
  unfold resume
  rw [h]

theorem takeChain_of_not_mem {ops : List BinaryOp} {operand : Parser} {rest : List Token}
    (h : ∀ op, .op op ∈ rest.head? → op ∉ ops) (fuel : Nat) (built : Built) :
    takeChain ops operand fuel built rest = some (built, rest) := by
  unfold takeChain
  split
  · rename_i op rest
    rw [if_neg (h op rfl)]
  · rfl

theorem takeAccesses_of_ends {inner : Parser} {rest : List Token}
    (h : Phrase.accessed.Ends rest) (fuel : Nat) (built : Built) :
    takeAccesses inner fuel built rest = some (built, rest) := by
  unfold takeAccesses
  split
  · exact absurd (by simp [Phrase.Continues]) (h .dot rfl)
  · exact absurd (by simp [Phrase.Continues]) (h .openBracket rfl)
  · rfl

theorem Phrase.resume_of_ends {p : Phrase} {rest : List Token} (h : p.Ends rest)
    (depth fuel : Nat) (built : Built) :
    p.resume depth fuel built rest = some (built, rest) := by
  cases hp : p.chain? with
  | some part =>
    rw [resume_of_chain? hp]
    refine takeChain_of_not_mem (fun op ht hop => h _ ht ?_) fuel built
    rw [Continues, levels_of_chain? hp]
    exact List.mem_append_left _ hop
  | none =>
    cases p with
    | accessed => exact takeAccesses_of_ends h fuel built
    | conditional | prefixed | primary => rfl
    | _ => cases hp

/-- What the parser does with a phrase in front of a row: it reads the phrase, with its
height, and goes on behind it. -/
def Reads (p : Phrase) (row : List Token) (e : Expr) : Prop :=
  ∀ (depth : Nat) (rest : List Token), row.length ≤ depth + 1 → p.part.Ends rest →
    ∃ fuel, rest.length ≤ fuel ∧ p.parser depth (row ++ rest) = p.resume depth fuel (.of e) rest

theorem Reads.whole {p : Phrase} {row : List Token} {e : Expr} (h : Reads p row e) (depth : Nat)
    (rest : List Token) (hd : row.length ≤ depth + 1) (he : p.Ends rest) :
    p.parser depth (row ++ rest) = some (.of e, rest) := by
  obtain ⟨fuel, -, hr⟩ := h depth rest hd he.part
  rw [hr, Phrase.resume_of_ends he]

/-- The conditionals inside an expression are shorter than it, so they are read with
less depth. -/
theorem Reads.inside {row : List Token} {e : Expr} (h : Reads .conditional row e) (depth : Nat)
    (rest : List Token) (hne : row ≠ []) (hd : row.length ≤ depth)
    (he : Phrase.conditional.Ends rest) : takeTernary depth (row ++ rest) = some (.of e, rest) := by
  cases depth with
  | zero => exact absurd (List.length_eq_zero_iff.1 (Nat.le_zero.1 hd)) hne
  | succ depth => exact h.whole depth rest hd he

/-- An operand does not begin with an operator. -/
theorem Derives.takePrefixed_eq {p : Phrase} {row : List Token} {e : Expr} (h : OfTokens p row e)
    (hp : p = .primary ∨ p = .accessed) (inner : Parser) (rest : List Token) :
    takePrefixed inner (row ++ rest) = takeAccessed inner (row ++ rest) := by
  induction h generalizing rest with
  | null hw | bool hw | num hw | str hw | ident hw => subst hw; rfl
  | parens hl hg _ _ _ _ => subst hl hg; rfl
  | object _ ih => exact ih (.inl rfl) rest
  | member _ _ _ _ _ ih | index _ _ _ _ _ _ _ ih _ =>
    simp only [List.append_assoc]
    exact ih (.inr rfl) _
  | operand | not | neg | plain | ternary => simp at hp
  | part hc | joined hc => rcases hp with rfl | rfl <;> cases hc

theorem Phrase.ends_nil (p : Phrase) : p.Ends [] := by
  intro token ht
  cases ht

/-- Nothing continues a literal, a variable or a parenthesized expression. -/
theorem Phrase.ends_primary (rest : List Token) : primary.Ends rest := by
  intro token _ hc
  cases token <;> simp_all [Continues, levels]

theorem Phrase.ends_closing {token : Token}
    (h : token = .closeParen ∨ token = .closeBracket ∨ token = .colon) (p : Phrase)
    (rest : List Token) : p.Ends (token :: rest) := by
  intro token' ht hc
  cases Option.mem_some.1 ht
  rcases h with rfl | rfl | rfl <;> exact hc

theorem Phrase.ends_question {p : Phrase} (h : p ≠ conditional) (rest : List Token) :
    p.Ends (.question :: rest) := by
  intro token ht hc
  cases Option.mem_some.1 ht
  exact h hc

theorem reads_parens {t : List Token} {e : Expr} (h : Reads .conditional t e) (hne : t ≠ []) :
    Reads .primary (.openParen :: (t ++ [.closeParen])) e := by
  intro depth rest hd _
  simp only [List.length_append, List.length_cons, List.length_nil] at hd
  have hi := h.inside depth (.closeParen :: rest) hne (by omega)
    (Phrase.ends_closing (.inl rfl) _ _)
  refine ⟨rest.length, Nat.le_refl _, ?_⟩
  simp [Phrase.parser, takePrimary, Phrase.resume, Phrase.chain?, hi]

theorem Reads.object {t : List Token} {e : Expr} (h : Reads .primary t e) :
    Reads .accessed t e := by
  intro depth rest hd _
  have hr := h.whole depth rest hd (Phrase.ends_primary rest)
  refine ⟨rest.length, Nat.le_refl _, ?_⟩
  simp only [Phrase.parser] at hr
  simp only [Phrase.parser, takeAccessed, hr, Phrase.resume, Phrase.chain?]

/-- A loop has a round left for what stands in front of the rest. -/
theorem exists_round {token : Token} {row rest : List Token} {fuel : Nat}
    (h : (token :: (row ++ rest)).length ≤ fuel) : ∃ f, fuel = f + 1 ∧ rest.length ≤ f := by
  rw [List.length_cons, List.length_append] at h
  exact ⟨fuel - 1, by omega, by omega⟩

theorem Reads.member {t : List Token} {e : Expr} (h : Reads .accessed t e) (name : String) :
    Reads .accessed (t ++ [.dot, .ident name]) (.member e name) := by
  intro depth rest hd _
  rw [List.length_append] at hd
  obtain ⟨fuel, hf, hr⟩ := h depth (.dot :: ([.ident name] ++ rest)) (by omega)
    (Phrase.ends_primary _)
  obtain ⟨fuel, rfl, hle⟩ := exists_round hf
  refine ⟨fuel, hle, ?_⟩
  simpa [Phrase.resume, Phrase.chain?, takeAccesses] using hr

theorem Reads.index {t i : List Token} {e position : Expr} (h : Reads .accessed t e)
    (h' : Reads .conditional i position) (hne : i ≠ []) :
    Reads .accessed (t ++ .openBracket :: (i ++ [.closeBracket])) (.index e position) := by
  intro depth rest hd _
  simp only [List.length_append, List.length_cons, List.length_nil] at hd
  have hi := h'.inside depth (.closeBracket :: rest) hne (by omega)
    (Phrase.ends_closing (.inr (.inl rfl)) _ _)
  obtain ⟨fuel, hf, hr⟩ := h depth (.openBracket :: ((i ++ [.closeBracket]) ++ rest)) (by omega)
    (Phrase.ends_primary _)
  obtain ⟨fuel, rfl, hle⟩ := exists_round hf
  refine ⟨fuel, hle, ?_⟩
  simpa [Phrase.resume, Phrase.chain?, takeAccesses, hi] using hr

theorem Reads.not {t : List Token} {e : Expr} (h : Reads .prefixed t e) :
    Reads .prefixed (.not :: t) (.unary .not e) := by
  intro depth rest hd he
  have hr : takePrefixed (takeTernary depth) _ = _ :=
    h.whole depth rest (Nat.le_of_succ_le hd) he
  refine ⟨rest.length, Nat.le_refl _, ?_⟩
  simp [Phrase.parser, takeJoined, Phrase.levels, takePrefixed, hr, Phrase.resume, Phrase.chain?]

theorem Reads.neg {t : List Token} {e : Expr} (h : Reads .prefixed t e) :
    Reads .prefixed (.op .sub :: t) (.unary .neg e) := by
  intro depth rest hd he
  have hr : takePrefixed (takeTernary depth) _ = _ :=
    h.whole depth rest (Nat.le_of_succ_le hd) he
  refine ⟨rest.length, Nat.le_refl _, ?_⟩
  simp [Phrase.parser, takeJoined, Phrase.levels, takePrefixed, hr, Phrase.resume, Phrase.chain?]

theorem Reads.of_part {p q : Phrase} {ops : List BinaryOp} (hp : p.chain? = some (ops, q))
    {t : List Token} {e : Expr} (h : Reads q t e) : Reads p t e := by
  intro depth rest hd he
  rw [Phrase.part_of_chain? hp] at he
  have hr := h.whole depth rest hd he
  refine ⟨rest.length, Nat.le_refl _, ?_⟩
  rw [Phrase.parser_of_chain? hp, hr, Phrase.resume_of_chain? hp]

theorem Reads.joined {p q : Phrase} {ops : List BinaryOp} (hp : p.chain? = some (ops, q))
    {op : BinaryOp} (hop : op ∈ ops) {t t' : List Token} {left right : Expr}
    (h : Reads p t left) (h' : Reads q t' right) :
    Reads p (t ++ .op op :: t') (.binary op left right) := by
  intro depth rest hd he
  rw [Phrase.part_of_chain? hp] at he
  rw [List.length_append, List.length_cons] at hd
  have hright := h'.whole depth rest (by omega) he
  obtain ⟨fuel, hf, hr⟩ := h depth (.op op :: (t' ++ rest)) (by omega)
    (by rw [Phrase.part_of_chain? hp]; exact Phrase.ends_of_mem hp hop _)
  obtain ⟨fuel, rfl, hle⟩ := exists_round hf
  refine ⟨fuel, hle, ?_⟩
  rw [Phrase.resume_of_chain? hp] at hr ⊢
  rw [takeChain, if_pos hop, hright] at hr
  simpa using hr

theorem Reads.plain {t : List Token} {e : Expr} (h : Reads .disjunction t e) :
    Reads .conditional t e := by
  intro depth rest hd he
  have hr : takeJoined (takePrefixed (takeTernary depth)) Expr.levels _ = _ :=
    h.whole depth rest hd he.disjunction
  refine ⟨rest.length, Nat.le_refl _, ?_⟩
  simp only [Phrase.parser, takeTernary, hr]
  split
  · rename_i h
    cases h
    exact absurd rfl (he .question rfl)
  · rfl

theorem Reads.ternary {t t' t'' : List Token} {condition consequent alternate : Expr}
    (h : Reads .disjunction t condition) (h' : Reads .conditional t' consequent)
    (h'' : Reads .conditional t'' alternate) (hne' : t' ≠ []) (hne'' : t'' ≠ []) :
    Reads .conditional (t ++ .question :: (t' ++ .colon :: t''))
      (.ternary condition consequent alternate) := by
  intro depth rest hd he
  simp only [List.length_append, List.length_cons] at hd
  have hr : takeJoined (takePrefixed (takeTernary depth)) Expr.levels _ = _ :=
    h.whole depth (.question :: (t' ++ .colon :: (t'' ++ rest))) (by omega)
      (Phrase.ends_question (by decide) _)
  have hr' := h'.inside depth (.colon :: (t'' ++ rest)) hne' (by omega)
    (Phrase.ends_closing (.inr (.inr rfl)) _ _)
  have hr'' := h''.inside depth rest hne'' (by omega) he
  refine ⟨rest.length, Nat.le_refl _, ?_⟩
  simp [Phrase.parser, takeTernary, hr, hr', hr'', Phrase.resume, Phrase.chain?]

/-- **A phrase is read as a whole.** The induction is on the rules. A phrase read so
far is a loop that goes on, so the rules that extend a phrase from the left each
unfold one round of a loop; the other rules end a loop inside, which is where it
matters what follows. -/
theorem reads_of_derives {p : Phrase} {row : List Token} {e : Expr} (h : OfTokens p row e) :
    Reads p row e := by
  induction h with
  | null hw | bool hw | num hw | str hw | ident hw =>
    subst hw
    exact fun _ rest _ _ => ⟨rest.length, Nat.le_refl _, rfl⟩
  | parens hl hg h hg' hr ih =>
    subst hl hg hg' hr
    simpa using reads_parens ih h.ne_nil
  | object _ ih => exact ih.object
  | member _ hg hd hg' hw ih =>
    subst hg hd hg' hw
    simpa using ih.member _
  | index _ hg hl hg' h' hg'' hr ih ih' =>
    subst hg hl hg' hg'' hr
    simpa using ih.index ih' h'.ne_nil
  | operand h ih =>
    intro depth rest hd he
    refine ⟨rest.length, Nat.le_refl _, ?_⟩
    exact (h.takePrefixed_eq (.inr rfl) (takeTernary depth) rest).trans
      (ih.whole depth rest hd he.accessed)
  | not hw hg _ ih =>
    subst hw hg
    exact ih.not
  | neg hw hg _ ih =>
    subst hw hg
    exact ih.neg
  | part hp _ ih => exact ih.of_part hp
  | joined hp _ hg hop hw hg' _ ih ih' =>
    subst hg hw hg'
    simpa using ih.joined hp hop ih'
  | plain _ ih => exact ih.plain
  | ternary _ hg hq hg' h' hk hc hk' h'' ih ih' ih'' =>
    subst hg hq hg' hk hc hk'
    simpa using ih.ternary ih' ih'' h'.ne_nil h''.ne_nil

end Grammar

/-! ### Whole rows -/

/-- **The parser accepts what the grammar derives, and reads it as the grammar does.** -/
theorem Expr.ofTokens?_eq_some_iff {tokens : List Token} {e : Expr} :
    ofTokens? tokens = some (.of e) ↔ Grammar.OfTokens .conditional tokens e := by
  unfold ofTokens? ofTokensWithin?
  constructor
  · intro h
    split at h
    · rename_i hr
      cases h
      obtain ⟨row, rfl, hrow⟩ := Grammar.sound_takeTernary _ hr
      have hwhole : Grammar.OfTokens .conditional row e := hrow
      simpa using hwhole
    · cases h
  · intro h
    have hr := (Grammar.reads_of_derives h).inside (tokens.length + 1) [] h.ne_nil (by omega)
      (Grammar.Phrase.ends_nil _)
    rw [List.append_nil] at hr
    rw [hr]

end ActionTree
