/-
# Accesses follow paths of JSON

A path leads from a JSON value down to one inside of it, by the names of fields and by places
in arrays. Written as indexes behind a variable, one behind the other (`Expr.chain`), it looks
up in converted values what the path finds in the JSON value itself: lookup commutes with the
conversion step by step (`Value.index?_ofJson`), so whole paths do (`Value.follow_ofJson`).

Where a path ends early, it matters how far it gets. A last step that leads nowhere gives
null; a step behind null, or behind a step that leads nowhere, is an error and names the
property that was asked of null.

Key definitions: `PathStep`, `Json.find?`, `Json.MissesLast`, `Json.BreaksAt`, `Expr.chain`.
Key theorems: `Value.index?_ofJson`, `Value.follow_ofJson`, `Json.found_or_ends`,
`Expr.value_chain`, `Expr.eval_chain`.
-/
import ActionTree.Proofs.Expr.Access
import ActionTree.Proofs.Expr.Bounds

namespace ActionTree

/-! ### Paths -/

/-- A step of a path: to the field of an object or to the item of an array. -/
inductive PathStep where
  | key (name : String)
  | place (index : Nat)

namespace PathStep

/-- A step as a text. -/
def text : PathStep → String
  | key name => name
  | place index => Decimal.digitsText index

/-- The value by which an expression takes a step. -/
def value : PathStep → Value
  | key name => .str name
  | place index => .num (Float.ofNat index)

/-- The literal of that value. -/
def literal : PathStep → Expr
  | key name => .str name
  | place index => .num (Float.ofNat index)

/-- A place that a number denotes exactly. A key may be any. -/
def IsExact : PathStep → Prop
  | key _ => True
  | place index => index < 2 ^ 53

/-- Whether a step is made for a JSON value: keys are for objects, places for arrays. -/
def Fits : PathStep → Json → Prop
  | key _, .obj _ => True
  | place _, .arr _ => True
  | _, _ => False

end PathStep

namespace Json

variable {json next found : Json} {step following : PathStep} {path rest : List PathStep}

/-- The JSON value behind a step. -/
def at? : Json → PathStep → Option Json
  | obj fields, .key name => Fields.get? fields name
  | arr items, .place index => items[index]?
  | _, _ => none

/-- The JSON value behind a path. -/
def find? (json : Json) (path : List PathStep) : Option Json :=
  path.foldlM at? json

theorem find?_cons (h : json.at? step = some next) (rest : List PathStep) :
    json.find? (step :: rest) = next.find? rest := by
  rw [find?, List.foldlM_cons, h]
  rfl

/-- Where a step leads, it fits. -/
theorem fits_of_at? (h : json.at? step = some next) : step.Fits json := by
  cases step with
  | key name =>
    cases json with
    | obj fields => trivial
    | _ => cases h
  | place index =>
    cases json with
    | arr items => trivial
    | _ => cases h

/-- A path along which each step fits the value that it starts from, unless this is null. -/
def Suits (json : Json) (path : List PathStep) : Prop :=
  ∀ front step rest, path = front ++ step :: rest →
    ∀ reached, json.find? front = some reached → reached ≠ null → step.Fits reached

theorem Suits.front {front rest : List PathStep} (h : json.Suits (front ++ rest)) :
    json.Suits front := by
  intro front' step rest' hsplit
  exact h front' step (rest' ++ rest) (by rw [hsplit, List.append_assoc, List.cons_append])

theorem Suits.cons (hfit : json ≠ null → step.Fits json)
    (hrest : ∀ next, json.at? step = some next → next.Suits rest) :
    json.Suits (step :: rest) := by
  intro front step' rest' hsplit reached hreached hnull
  cases front with
  | nil =>
    cases hsplit
    cases hreached
    exact hfit hnull
  | cons _ front =>
    cases hsplit
    cases h : json.at? step with
    | none =>
      rw [find?, List.foldlM_cons, h] at hreached
      cases hreached
    | some next =>
      rw [find?_cons h] at hreached
      exact hrest next h front step' rest' rfl reached hreached hnull

/-- The last step of a path is the first one that leads nowhere. -/
def MissesLast (json : Json) (path : List PathStep) : Prop :=
  ∃ front last parent, path = front ++ [last] ∧
    json.find? front = some parent ∧ parent ≠ null ∧ parent.at? last = none

/-- A step of a path stands behind null, or behind the first one that leads nowhere. -/
def BreaksAt (json : Json) (path : List PathStep) (following : PathStep) : Prop :=
  ∃ front rest, path = front ++ following :: rest ∧
    (json.find? front = some null ∨ json.MissesLast front)

theorem MissesLast.cons (h : json.at? step = some next) (hm : next.MissesLast path) :
    json.MissesLast (step :: path) := by
  obtain ⟨front, last, parent, rfl, hfront, hparent⟩ := hm
  exact ⟨step :: front, last, parent, rfl, (find?_cons h front).trans hfront, hparent⟩

theorem BreaksAt.cons (h : json.at? step = some next) (hb : next.BreaksAt path following) :
    json.BreaksAt (step :: path) following := by
  obtain ⟨front, rest, rfl, hfront⟩ := hb
  refine ⟨step :: front, rest, rfl, hfront.imp (fun hnull => ?_) (MissesLast.cons h)⟩
  rw [find?_cons h, hnull]

/-- A path finds a value, or its last step leads nowhere, or it breaks off before. -/
theorem found_or_ends (json : Json) (path : List PathStep) :
    (∃ found, json.find? path = some found) ∨ json.MissesLast path ∨
      ∃ following, json.BreaksAt path following := by
  induction path generalizing json with
  | nil => exact .inl ⟨json, rfl⟩
  | cons step rest ih =>
    by_cases hnull : json = null
    · exact .inr (.inr ⟨step, [], rest, rfl, .inl (congrArg some hnull)⟩)
    · cases h : json.at? step with
      | some next =>
        refine (ih next).imp ?_ (.imp (MissesLast.cons h) ?_)
        · rintro ⟨found, hfound⟩
          exact ⟨found, (find?_cons h rest).trans hfound⟩
        · rintro ⟨following, hb⟩
          exact ⟨following, hb.cons h⟩
      | none =>
        have hmissed : json.MissesLast [step] := ⟨[], step, json, rfl, rfl, hnull, h⟩
        cases rest with
        | nil => exact .inr (.inl hmissed)
        | cons following rest =>
          exact .inr (.inr ⟨following, [step], rest, rfl, .inr hmissed⟩)

end Json

/-! ### Lookup in converted values -/

namespace Value

variable {json found : Json} {step following : PathStep} {path : List PathStep}

/-- A step into a value is a step into the JSON value that it was made from; null stands for a
step that leads nowhere. -/
theorem index?_ofJson (hexact : step.IsExact) (hfit : step.Fits json) :
    (ofJson json).index? step.value = .ok (((json.at? step).map ofJson).getD null) := by
  cases step with
  | key name =>
    cases json with
    | obj fields =>
      show Except.ok ((Fields.get? (ofFields fields) name).getD null) = _
      rw [get?_ofFields]
      rfl
    | _ => cases hfit
  | place index =>
    cases json with
    | arr items =>
      have hindex : index < 0x20000000000000 := hexact
      show Except.ok (element (ofItems items) (Float.ofNat index)) = _
      rw [element_ofNat hindex, ofItems_eq_map, List.getElem?_map]
      rfl
    | _ => cases hfit

/-- Null has nothing to look up. -/
theorem index?_null (hexact : step.IsExact) :
    null.index? step.value = .error (.nullAccess step.text) := by
  cases step with
  | key name => rfl
  | place index =>
    show Except.error (ExprError.nullAccess (numberText (Float.ofNat index))) = _
    rw [numberText_ofNat hexact]
    rfl

/-- Looks up one step after the other. -/
def follow (value : Value) (path : List PathStep) : Except ExprError Value :=
  path.foldlM (fun value step => value.index? step.value) value

theorem follow_cons (value : Value) (step : PathStep) (rest : List PathStep) :
    value.follow (step :: rest) = value.index? step.value >>= fun value => value.follow rest :=
  List.foldlM_cons

theorem follow_append (value : Value) (front rest : List PathStep) :
    value.follow (front ++ rest) = value.follow front >>= fun value => value.follow rest :=
  List.foldlM_append

/-- **Lookup commutes with the conversion** along a path that finds something. -/
theorem follow_ofJson (hexact : ∀ step ∈ path, step.IsExact) (h : json.find? path = some found) :
    (ofJson json).follow path = .ok (ofJson found) := by
  induction path generalizing json with
  | nil =>
    cases h
    rfl
  | cons step rest ih =>
    obtain ⟨hstep, hrest⟩ := List.forall_mem_cons.1 hexact
    cases hat : json.at? step with
    | none =>
      rw [Json.find?, List.foldlM_cons, hat] at h
      cases h
    | some next =>
      have hindex := index?_ofJson hstep (Json.fits_of_at? hat)
      rw [follow_cons, hindex, hat]
      exact ih hrest ((Json.find?_cons hat rest).symm.trans h)

/-- A last step that leads nowhere finds null. -/
theorem follow_of_missesLast (hexact : ∀ step ∈ path, step.IsExact) (hs : json.Suits path)
    (h : json.MissesLast path) : (ofJson json).follow path = .ok null := by
  obtain ⟨front, last, parent, rfl, hfront, hparent, hlast⟩ := h
  obtain ⟨hexact, hlastExact⟩ := List.forall_mem_append.1 hexact
  have hfit : last.Fits parent := hs front last [] rfl parent hfront hparent
  have hindex := index?_ofJson (hlastExact last (List.mem_singleton_self last)) hfit
  rw [follow_append, follow_ofJson hexact hfront]
  show (ofJson parent).follow [last] = _
  rw [follow_cons, hindex, hlast]
  rfl

/-- A step behind null, or behind one that leads nowhere, is an error. -/
theorem follow_of_breaksAt (hexact : ∀ step ∈ path, step.IsExact) (hs : json.Suits path)
    (h : json.BreaksAt path following) :
    (ofJson json).follow path = .error (.nullAccess following.text) := by
  obtain ⟨front, rest, rfl, hends⟩ := h
  obtain ⟨hfront, hrest⟩ := List.forall_mem_append.1 hexact
  have hnull : (ofJson json).follow front = .ok null := by
    rcases hends with hnull | hmissed
    · exact follow_ofJson hfront hnull
    · exact follow_of_missesLast hfront hs.front hmissed
  rw [follow_append, hnull]
  show null.follow (following :: rest) = _
  rw [follow_cons, index?_null (hrest following List.mem_cons_self)]
  rfl

end Value

/-! ### Chains of accesses -/

namespace Expr

variable {context : Context} {name : String} {json : Json} {path : List PathStep}

/-- A path as indexes behind a variable. -/
def chain (name : String) (path : List PathStep) : Expr :=
  path.foldl (fun e step => index e step.literal) (ident name)

theorem height_foldl_index (e : Expr) (path : List PathStep) :
    (path.foldl (fun e step => index e step.literal) e).height = e.height + path.length := by
  induction path generalizing e with
  | nil => rfl
  | cons step rest ih =>
    have hliteral : step.literal.height = 1 := by cases step <;> rfl
    rw [List.foldl_cons, ih, height, hliteral, Nat.max_eq_left e.height_pos, List.length_cons]
    omega

theorem height_chain (name : String) (path : List PathStep) :
    (chain name path).height = path.length + 1 := by
  rw [chain, height_foldl_index, height, Nat.add_comm]

theorem value_foldl_index (e : Expr) (path : List PathStep) :
    (path.foldl (fun e step => index e step.literal) e).value context =
      e.value context >>= fun value => value.follow path := by
  induction path generalizing e with
  | nil => exact (bind_pure (e.value context)).symm
  | cons step rest ih =>
    have hliteral : step.literal.value context = .ok step.value := by cases step <;> rfl
    rw [List.foldl_cons, ih, value, hliteral, bind_assoc]
    exact bind_congr fun value => (value.follow_cons step rest).symm

/-- **A chain looks its path up** in the value of the variable. -/
theorem value_chain (h : context.get? name = some json) (path : List PathStep) :
    (chain name path).value context = (Value.ofJson json).follow path := by
  rw [chain, value_foldl_index, value, variableValue, h]
  rfl

/-- **A chain of accesses reads the JSON value of its variable.** It is one node higher than
the path is long. What the path finds is its value; if the last step is the first that leads
nowhere, its value is null; and if a step stands behind null or behind one that leads nowhere,
it fails with the text of this step. One of the three is always the case. -/
theorem eval_chain (h : context.get? name = some json) (hlength : path.length ≤ maxHeight - 1)
    (hexact : ∀ step ∈ path, step.IsExact) (hs : json.Suits path) :
    (chain name path).height = path.length + 1 ∧
    (∀ found, json.find? path = some found →
      (chain name path).eval context = .ok (.ofJson found)) ∧
    (json.MissesLast path → (chain name path).eval context = .ok .null) ∧
    (∀ following, json.BreaksAt path following →
      (chain name path).eval context = .error (.nullAccess following.text)) ∧
    ((∃ found, json.find? path = some found) ∨ json.MissesLast path ∨
      ∃ following, json.BreaksAt path following) := by
  have hheight : 0 + (chain name path).height ≤ maxHeight := by
    have hpos : 1 ≤ maxHeight := by decide
    rw [height_chain]
    omega
  have heval : (chain name path).eval context = (Value.ofJson json).follow path := by
    rw [eval, evalAt_eq_value context _ 0 hheight, value_chain h]
  rw [heval]
  exact ⟨height_chain name path, fun found => Value.follow_ofJson hexact,
    Value.follow_of_missesLast hexact hs, fun following => Value.follow_of_breaksAt hexact hs,
    json.found_or_ends path⟩

/-- Paths in an object with a list in it: one that leads to an item, one that ends behind the
last item, one that goes on from there, and one that goes on from null. -/
theorem eval_chain_list :
    let list : Json := .arr [.bool true, .obj [("b", .null)]]
    let context : Context := ⟨[("x", .obj [("a", list)])]⟩
    (chain "x" [.key "a", .place 1]).eval context = .ok (.obj [("b", .null)]) ∧
    (chain "x" [.key "a", .place 2]).eval context = .ok .null ∧
    (chain "x" [.key "a", .place 2, .place 0]).eval context = .error (.nullAccess "0") ∧
    (chain "x" [.key "a", .place 1, .key "b", .key "c"]).eval context =
      .error (.nullAccess "c") := by
  intro list context
  have hx : context.get? "x" = some (.obj [("a", list)]) := rfl
  have hlist (rest : List PathStep) (h : list.Suits rest) :
      (Json.obj [("a", list)]).Suits (.key "a" :: rest) := by
    refine .cons (fun _ => trivial) fun next hnext => ?_
    cases hnext
    exact h
  have hnull : (Json.obj [("a", list)]).Suits [.key "a", .place 1, .key "b", .key "c"] := by
    refine hlist _ (.cons (fun _ => trivial) fun next hnext => ?_)
    cases hnext
    refine .cons (fun _ => trivial) fun next hnext => ?_
    cases hnext
    exact .cons (fun h => absurd rfl h) fun next hnext => nomatch hnext
  have hend : (Json.obj [("a", list)]).Suits [.key "a", .place 2, .place 0] :=
    hlist _ (.cons (fun _ => trivial) fun next hnext => nomatch hnext)
  have hmissed : (Json.obj [("a", list)]).MissesLast [.key "a", .place 2] :=
    ⟨[.key "a"], .place 2, list, rfl, rfl, nofun, rfl⟩
  have htoItem : (Json.obj [("a", list)]).Suits [.key "a", .place 1] := hnull.front
  have htoEnd : (Json.obj [("a", list)]).Suits [.key "a", .place 2] := hend.front
  have hfound := (eval_chain hx (by decide) (by simp [PathStep.IsExact]) htoItem).2.1 _ rfl
  have hlast := (eval_chain hx (by decide) (by simp [PathStep.IsExact]) htoEnd).2.2.1 hmissed
  have hbehindEnd := (eval_chain hx (by decide) (by simp [PathStep.IsExact]) hend).2.2.2.1
    (.place 0) ⟨[.key "a", .place 2], [], rfl, .inr hmissed⟩
  have hbehindNull := (eval_chain hx (by decide) (by simp [PathStep.IsExact]) hnull).2.2.2.1
    (.key "c") ⟨[.key "a", .place 1, .key "b"], [], rfl, .inl rfl⟩
  exact ⟨hfound, hlast, hbehindEnd, hbehindNull⟩

end Expr
end ActionTree
