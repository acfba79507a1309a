/-
# Laws of equality

Strict equality compares numbers as numbers, and NaN equals nothing. So it is symmetric and
transitive, but reflexive only on values without a NaN inside, however deep it lies. These
three laws are those of the numbers, carried through lists and objects by induction over the
values. An object is compared field by field; since its fields ascend by name, that comes to
comparing it as a map (`Value.beq_obj_iff`). Loose equality differs from strict equality only
on scalars of different kinds, of which strict equality holds never.

No number of a JSON value becomes NaN, so what a variable holds always equals itself.

Key definitions: `Value.PartOf`, `Value.HasNaN`.
Key theorems: `Binary64.beq_self`, `Value.beq_comm`, `Value.beq_trans`, `Value.beq_self_iff`,
`Value.beq_obj_iff`, `Value.not_hasNaN_ofJson`, `Value.equality_laws`.
-/
import ActionTree.Proofs.Binary64
import ActionTree.Proofs.Expr.Bounds
import ActionTree.Proofs.Expr.Comparison
import ActionTree.Proofs.Expr.Reading

namespace ActionTree

/-! ### Numbers -/

namespace Binary64

open Float.Model (UnpackedFloat)

/-- Numbers compare as equal if both are zero, of whatever sign, or if they are the same. -/
theorem compare_eq_eq (x y : UnpackedFloat) : x.compare y = some .eq ↔
    (∃ s t, x = .zero s ∧ y = .zero t) ∨ (x = y ∧ x.isNaN = false) := by
  have hthen (e f : Int) (m n : Nat) :
      (compare e f).then (compare m n) = .eq ↔ e = f ∧ m = n := by
    rw [Ordering.then_eq_eq, compare_eq_iff_eq, compare_eq_iff_eq]
  rcases x with (s | s) | _ | s | ⟨s | s, m, e, hm⟩ <;>
    rcases y with (t | t) | _ | t | ⟨t | t, n, f, hn⟩
  case infinity.negative.infinity.negative | infinity.positive.infinity.positive =>
    exact iff_of_true rfl (.inr ⟨rfl, rfl⟩)
  all_goals simp [UnpackedFloat.compare, UnpackedFloat.isNaN, hthen, and_comm]

variable {x y z : Float}

theorem beq_comm (x y : Float) : (x == y) = (y == x) := by
  rw [Value.beq_eq_compareNumbers?, Value.beq_eq_compareNumbers? y, Value.compareNumbers?_swap y x]
  rcases Value.compareNumbers? y x with _ | _ | _ | _ <;> rfl

theorem beq_trans (h : (x == y) = true) (h' : (y == z) = true) : (x == z) = true := by
  rw [Value.beq_eq_compare, beq_iff_eq, compare_eq_eq] at h h' ⊢
  rcases h with ⟨s, t, hx, hy⟩ | ⟨hxy, hx⟩
  · rcases h' with ⟨_, u, _, hz⟩ | ⟨hyz, _⟩
    · exact .inl ⟨s, u, hx, hz⟩
    · exact .inl ⟨s, t, hx, hyz ▸ hy⟩
  · rwa [hxy]

/-- **A number equals itself unless it is NaN.** -/
theorem beq_self (x : Float) : (x == x) = !x.isNaN := by
  show _ = !x.toModel.unpack.isNaN
  rw [Bool.eq_iff_iff, Value.beq_eq_compare, beq_iff_eq, compare_eq_eq, Bool.not_eq_true']
  refine ⟨?_, fun h => .inr ⟨rfl, h⟩⟩
  rintro (⟨s, _, hs, _⟩ | ⟨_, h⟩)
  · rw [hs]
    rfl
  · exact h

end Binary64

theorem Number.isNaN_toFloat (number : Number) : number.toFloat.isNaN = false := by
  cases number with
  | int n => exact Binary64.isNaN_ofInt n
  | float x finite =>
    have hfinite : x.toModel.unpack.isFinite = true := finite
    show x.toModel.unpack.isNaN = false
    cases hx : x.toModel.unpack with
    | notANumber => rw [hx] at hfinite; cases hfinite
    | _ => rfl

namespace Value

/-! ### Induction -/

/-- Induction over values, with a hypothesis for every item of a list and for every value in
an object. -/
theorem induct {motive : Value → Prop} (null : motive null) (bool : ∀ b, motive (bool b))
    (num : ∀ x, motive (num x)) (str : ∀ text, motive (str text))
    (list : ∀ items, (∀ item ∈ items, motive item) → motive (list items))
    (obj : ∀ fields, (∀ value ∈ fields.map Prod.snd, motive value) → motive (obj fields)) :
    ∀ value, motive value
  | .null => null
  | .bool b => bool b
  | .num x => num x
  | .str text => str text
  | .list items => list items fun item _h => induct null bool num str list obj item
  | .obj fields => obj fields fun value _h => induct null bool num str list obj value
termination_by value => sizeOf value
decreasing_by
  · have := List.sizeOf_lt_of_mem _h
    simp only [Value.list.sizeOf_spec]
    omega
  · obtain ⟨⟨name, _⟩, hm, rfl⟩ := List.mem_map.1 _h
    have := List.sizeOf_lt_of_mem hm
    simp only [Prod.mk.sizeOf_spec, Value.obj.sizeOf_spec] at this ⊢
    omega

/-! ### Strict equality -/

variable {as bs cs : List Value}

/-- Objects are equal if their names are and the lists of their values are. -/
theorem beqFields_eq (as bs : List (String × Value)) : beqFields as bs =
    (as.map Prod.fst == bs.map Prod.fst && beqItems (as.map Prod.snd) (bs.map Prod.snd)) := by
  induction as generalizing bs with
  | nil => cases bs <;> rfl
  | cons field as ih =>
    obtain ⟨name, a⟩ := field
    cases bs with
    | nil => rfl
    | cons field bs =>
      obtain ⟨other, b⟩ := field
      rw [beqFields, ih]
      show _ = ((name == other && as.map Prod.fst == bs.map Prod.fst) &&
        (beq a b && beqItems (as.map Prod.snd) (bs.map Prod.snd)))
      simp only [Bool.and_assoc, Bool.and_left_comm]

theorem beqItems_comm (h : ∀ a ∈ as, ∀ b, beq a b = beq b a) (bs : List Value) :
    beqItems as bs = beqItems bs as := by
  induction as generalizing bs with
  | nil => cases bs <;> rfl
  | cons a as ih =>
    cases bs with
    | nil => rfl
    | cons b bs =>
      obtain ⟨ha, h⟩ := List.forall_mem_cons.1 h
      rw [beqItems, beqItems, ha b, ih h bs]

theorem beqItems_trans (h : ∀ a ∈ as, ∀ b c, beq a b = true → beq b c = true → beq a c = true)
    (hab : beqItems as bs = true) (hbc : beqItems bs cs = true) : beqItems as cs = true := by
  induction as generalizing bs cs with
  | nil =>
    cases bs with
    | nil => exact hbc
    | cons => cases hab
  | cons a as ih =>
    cases bs with
    | nil => cases hab
    | cons b bs =>
      cases cs with
      | nil => cases hbc
      | cons c cs =>
        obtain ⟨ha, h⟩ := List.forall_mem_cons.1 h
        rw [beqItems, Bool.and_eq_true] at hab hbc ⊢
        exact ⟨ha b c hab.1 hbc.1, ih h hab.2 hbc.2⟩

theorem beqItems_self_iff : beqItems as as = true ↔ ∀ a ∈ as, beq a a = true := by
  induction as with
  | nil => simp [beqItems]
  | cons a as ih => rw [beqItems, Bool.and_eq_true, ih, List.forall_mem_cons]

/-- **Strict equality is symmetric.** -/
theorem beq_comm (a b : Value) : beq a b = beq b a := by
  induction a using induct generalizing b with
  | null => cases b <;> rfl
  | bool p =>
    cases b with
    | bool q => exact BEq.comm
    | _ => rfl
  | num x =>
    cases b with
    | num y => exact Binary64.beq_comm x y
    | _ => rfl
  | str p =>
    cases b with
    | str q => exact BEq.comm
    | _ => rfl
  | list as ih =>
    cases b with
    | list bs => exact beqItems_comm ih bs
    | _ => rfl
  | obj as ih =>
    cases b with
    | obj bs =>
      show beqFields as bs = beqFields bs as
      rw [beqFields_eq, beqFields_eq, BEq.comm, beqItems_comm ih]
    | _ => rfl

/-- **Strict equality is transitive.** -/
theorem beq_trans {a b c : Value} (h : beq a b = true) (h' : beq b c = true) :
    beq a c = true := by
  induction a using induct generalizing b c with
  | null =>
    cases b with
    | null => exact h'
    | _ => cases h
  | bool p =>
    cases b with
    | bool q =>
      obtain rfl : p = q := eq_of_beq h
      exact h'
    | _ => cases h
  | num x =>
    cases b with
    | num y =>
      cases c with
      | num z => exact Binary64.beq_trans h h'
      | _ => cases h'
    | _ => cases h
  | str p =>
    cases b with
    | str q =>
      obtain rfl : p = q := eq_of_beq h
      exact h'
    | _ => cases h
  | list as ih =>
    cases b with
    | list bs =>
      cases c with
      | list cs => exact beqItems_trans (fun a ha b c => ih a ha) h h'
      | _ => cases h'
    | _ => cases h
  | obj as ih =>
    cases b with
    | obj bs =>
      cases c with
      | obj cs =>
        have hab : beqFields as bs = true := h
        have hbc : beqFields bs cs = true := h'
        show beqFields as cs = true
        rw [beqFields_eq, Bool.and_eq_true, beq_iff_eq] at hab hbc ⊢
        exact ⟨hab.1.trans hbc.1, beqItems_trans (fun a ha b c => ih a ha) hab.2 hbc.2⟩
      | _ => cases h'
    | _ => cases h

/-! ### NaN inside a value -/

/-- A value is another one, or lies in it at some depth. -/
inductive PartOf (part : Value) : Value → Prop
  | self : PartOf part part
  | item {items : List Value} {item : Value} :
    item ∈ items → PartOf part item → PartOf part (list items)
  | field {fields : Fields Value} {value : Value} :
    value ∈ fields.map Prod.snd → PartOf part value → PartOf part (obj fields)

/-- NaN occurs somewhere in a value. -/
def HasNaN (value : Value) : Prop :=
  ∃ x : Float, x.isNaN = true ∧ (num x).PartOf value

theorem hasNaN_num {x : Float} : (num x).HasNaN ↔ x.isNaN = true := by
  refine ⟨?_, fun h => ⟨x, h, .self⟩⟩
  rintro ⟨y, hy, hpart⟩
  cases hpart
  exact hy

theorem hasNaN_list {items : List Value} :
    (list items).HasNaN ↔ ∃ item ∈ items, item.HasNaN := by
  constructor
  · rintro ⟨x, hx, hpart⟩
    cases hpart with
    | item hm hpart => exact ⟨_, hm, x, hx, hpart⟩
  · rintro ⟨item, hm, x, hx, hpart⟩
    exact ⟨x, hx, .item hm hpart⟩

theorem hasNaN_obj {fields : Fields Value} :
    (obj fields).HasNaN ↔ ∃ value ∈ fields.map Prod.snd, value.HasNaN := by
  constructor
  · rintro ⟨x, hx, hpart⟩
    cases hpart with
    | field hm hpart => exact ⟨_, hm, x, hx, hpart⟩
  · rintro ⟨value, hm, x, hx, hpart⟩
    exact ⟨x, hx, .field hm hpart⟩

/-- **A value equals itself unless NaN occurs in it.** -/
theorem beq_self_iff (value : Value) : beq value value = true ↔ ¬ value.HasNaN := by
  induction value using induct with
  | null => exact iff_of_true rfl (by rintro ⟨_, _, h⟩; cases h)
  | bool p => exact iff_of_true BEq.rfl (by rintro ⟨_, _, h⟩; cases h)
  | str p => exact iff_of_true BEq.rfl (by rintro ⟨_, _, h⟩; cases h)
  | num x =>
    rw [hasNaN_num, beq, Binary64.beq_self, Bool.not_eq_true', Bool.not_eq_true]
  | list items ih =>
    rw [hasNaN_list, beq, beqItems_self_iff]
    push Not
    exact forall₂_congr ih
  | obj fields ih =>
    rw [hasNaN_obj, beq, beqFields_eq, BEq.rfl, Bool.true_and, beqItems_self_iff]
    push Not
    exact forall₂_congr ih

/-- No number of a JSON value becomes NaN. -/
theorem not_hasNaN_ofJson (json : Json) : ¬ (ofJson json).HasNaN := by
  rintro ⟨x, hx, hpart⟩
  have hnumber (value : Value) (h : (num x).PartOf value) :
      ∀ json, value = ofJson json → x.isNaN = false := by
    induction h with
    | self =>
      rintro (_ | _ | number | _ | _ | _) hj <;> cases hj
      exact Number.isNaN_toFloat number
    | @item items item hm _ ih =>
      rintro (_ | _ | _ | _ | items' | _) hj <;> cases hj
      rw [ofItems_eq_map] at hm
      obtain ⟨item', _, rfl⟩ := List.mem_map.1 hm
      exact ih item' rfl
    | @field fields value hm _ ih =>
      rintro (_ | _ | _ | _ | _ | fields') hj <;> cases hj
      rw [map_snd_ofFields] at hm
      obtain ⟨value', _, rfl⟩ := List.mem_map.1 hm
      exact ih value' rfl
  exact Bool.false_ne_true ((hnumber _ hpart json rfl).symm.trans hx)

/-! ### Objects as maps -/

/-- Objects with entries under the same names have the same first name. -/
theorem first_eq_of_rel {r : Value → Value → Prop} {as bs : Fields Value} {name other : String}
    {a b : Value} (ha : Fields.Ascending ((name, a) :: as))
    (hb : Fields.Ascending ((other, b) :: bs))
    (h : ∀ key, Option.Rel r (Fields.get? ((name, a) :: as) key)
      (Fields.get? ((other, b) :: bs) key)) : name = other := by
  have hname := h name
  have hother := h other
  rw [Fields.get?_cons name name, if_pos rfl] at hname
  rw [Fields.get?_cons other other, if_pos rfl] at hother
  refine String.le_antisymm (ha.first_le fun hn => ?_) (hb.first_le fun hn => ?_)
  · rw [hn] at hother
    cases hother
  · rw [hn] at hname
    cases hname

/-- **Objects are equal if they have the same names, and equal values under each of them.** -/
theorem beq_obj_iff {as bs : Fields Value} (ha : as.Ascending) (hb : bs.Ascending) :
    beq (obj as) (obj bs) = true ↔
      ∀ name, Option.Rel (fun a b => beq a b = true) (as.get? name) (bs.get? name) := by
  show beqFields as bs = true ↔ _
  induction as generalizing bs with
  | nil =>
    cases bs with
    | nil => exact iff_of_true rfl fun _ => .none
    | cons field bs =>
      refine iff_of_false Bool.false_ne_true fun h => ?_
      have hrel := h field.1
      rw [Fields.get?_nil, Fields.get?_cons, if_pos rfl] at hrel
      cases hrel
  | cons field as ih =>
    obtain ⟨name, a⟩ := field
    obtain ⟨hname, has⟩ := List.pairwise_cons.1 ha
    cases bs with
    | nil =>
      refine iff_of_false Bool.false_ne_true fun h => ?_
      have hrel := h name
      rw [Fields.get?_nil, Fields.get?_cons, if_pos rfl] at hrel
      cases hrel
    | cons field bs =>
      obtain ⟨other, b⟩ := field
      obtain ⟨hother, hbs⟩ := List.pairwise_cons.1 hb
      rw [beqFields, Bool.and_eq_true, Bool.and_eq_true, beq_iff_eq, ih has hbs]
      constructor
      · rintro ⟨⟨rfl, hab⟩, hrest⟩ key
        rw [Fields.get?_cons, Fields.get?_cons]
        split
        · exact .some hab
        · exact hrest key
      · intro h
        obtain rfl := first_eq_of_rel ha hb h
        have hfirst := h name
        rw [Fields.get?_cons, if_pos rfl, Fields.get?_cons, if_pos rfl] at hfirst
        cases hfirst with
        | some hab =>
          refine ⟨⟨rfl, hab⟩, fun key => ?_⟩
          by_cases hk : key = name
          · rw [hk, Fields.get?_eq_none_of_lt hname, Fields.get?_eq_none_of_lt hother]
            exact .none
          · have hrel := h key
            rwa [Fields.get?_cons, if_neg hk, Fields.get?_cons, if_neg hk] at hrel

/-! ### Loose equality -/

/-- **Loose equality is symmetric.** -/
theorem looseEquals_comm (a b : Value) : a.looseEquals b = b.looseEquals a := by
  cases a <;> cases b
  case bool.bool | num.num | str.str | list.list | obj.obj => exact beq_comm _ _
  case num.str | str.num | num.bool | bool.num | str.bool | bool.str =>
    exact Binary64.beq_comm _ _
  all_goals rfl

/-- Values of different kinds are never strictly equal, and of one kind loose equality is
strict. -/
theorem looseEquals_of_beq {a b : Value} (h : beq a b = true) : a.looseEquals b = true := by
  cases a <;> cases b
  case null.null => rfl
  case bool.bool | num.num | str.str | list.list | obj.obj => exact h
  all_goals cases h

/-! ### A variable against itself -/

/-- A variable equals itself, whichever operator asks. -/
theorem eval_self_equal {context : Context} {name : String} {json : Json}
    (h : context.get? name = some json) : ∀ op ∈ [BinaryOp.strictEq, .eq],
      (Expr.binary op (.ident name) (.ident name)).eval context = .ok (.bool true) := by
  have hstrict : beq (ofJson json) (ofJson json) = true :=
    (beq_self_iff _).2 (not_hasNaN_ofJson json)
  have hvalue : Expr.variableValue context name = .ok (ofJson json) := by
    rw [Expr.variableValue, h]
  have heval (op : BinaryOp) (hd : op.decides (ofJson json) = false) :
      (Expr.binary op (.ident name) (.ident name)).eval context =
        .ok (op.apply (ofJson json) (ofJson json)) := by
    have hheight : 0 + (Expr.binary op (.ident name) (.ident name)).height ≤ maxHeight :=
      (by decide : 2 ≤ maxHeight)
    rw [Expr.eval, Expr.evalAt_eq_value context _ 0 hheight, Expr.value, Expr.value, hvalue]
    show (if op.decides (ofJson json) = true then _ else _) = _
    rw [hd]
    rfl
  refine List.forall_mem_cons.2 ⟨?_, List.forall_mem_cons.2 ⟨?_, List.forall_mem_nil _⟩⟩
  · rw [heval .strictEq rfl]
    exact congrArg (Except.ok ∘ Value.bool) hstrict
  · rw [heval .eq rfl]
    exact congrArg (Except.ok ∘ Value.bool) (looseEquals_of_beq hstrict)

/-- **The laws of equality.** Strict equality is symmetric and transitive, and a value equals
itself unless NaN occurs somewhere in it. Objects are equal if they are as maps. Loose equality
is symmetric and holds wherever strict equality does. Since no JSON value has NaN in it, a
variable equals itself, and so says each text that is derived from such a comparison. -/
theorem equality_laws :
    (∀ u v : Value, u.strictEquals v = v.strictEquals u) ∧
    (∀ u v w : Value, u.strictEquals v = true → v.strictEquals w = true →
      u.strictEquals w = true) ∧
    (∀ v : Value, v.strictEquals v = true ↔ ¬ v.HasNaN) ∧
    (∀ as bs : Fields Value, as.Ascending → bs.Ascending →
      ((obj as).strictEquals (obj bs) = true ↔
        ∀ name, Option.Rel (fun a b => a.strictEquals b = true) (as.get? name) (bs.get? name))) ∧
    (∀ u v : Value, u.looseEquals v = v.looseEquals u) ∧
    (∀ u v : Value, u.strictEquals v = true → u.looseEquals v = true) ∧
    ∀ (context : Context) (name : String) (json : Json), context.get? name = some json →
      ∀ op ∈ [BinaryOp.strictEq, .eq],
        let e := Expr.binary op (.ident name) (.ident name)
        e.eval context = .ok (.bool true) ∧
        ∀ source, Expr.DerivedFrom source e → Expr.checkLimits source = .ok () →
          Expr.evaluate context source = .ok (.bool true) := by
  refine ⟨beq_comm, fun u v w => beq_trans, beq_self_iff, fun as bs => beq_obj_iff,
    looseEquals_comm, fun u v => looseEquals_of_beq, ?_⟩
  intro context name json h op hop e
  have heval : e.eval context = .ok (.bool true) := eval_self_equal h op hop
  refine ⟨heval, fun source hderived hlimits => ?_⟩
  have hheight : e.height ≤ maxHeight := (by decide : 2 ≤ maxHeight)
  rw [Expr.evaluate, Expr.parse_of_derived hlimits hderived, if_pos hheight]
  exact heval

/-- Two lists of one object each, with zeros of opposite sign in it; a list with NaN in it;
and a variable that holds a list. -/
theorem equality_laws_nested :
    let u := list [obj [("a", num 0.0), ("b", null)]]
    let v := list [obj [("a", num (-0.0)), ("b", null)]]
    let w := list [str "", num Binary64.notANumber]
    let context : Context := ⟨[("x", .arr [.null, .str "x"])]⟩
    u.strictEquals v = true ∧ v.strictEquals v = true ∧ u.looseEquals v = true ∧
      w.HasNaN ∧ w.strictEquals w = false ∧
      Option.Rel (fun a b => a.strictEquals b = true) (some (num 0.0)) (some (num (-0.0))) ∧
      Expr.evaluate context "x === x" = .ok (.bool true) := by
  intro u v w context
  obtain ⟨hcomm, htrans, hself, hobj, -, hloose, hvariable⟩ := equality_laws
  have huv : u.strictEquals v = true := rfl
  have hvu : v.strictEquals u = true := (hcomm v u).trans huv
  have hw : w.HasNaN := ⟨Binary64.notANumber, rfl, .item (by simp) .self⟩
  have hww : w.strictEquals w = false :=
    Bool.eq_false_iff.2 fun h => (hself w).1 h hw
  have hascending (x : Float) : Fields.Ascending [("a", num x), ("b", null)] :=
    List.pairwise_pair.2 (by decide +kernel : "a" < "b")
  have hfield := (hobj _ _ (hascending 0.0) (hascending (-0.0))).1 rfl "a"
  have htext : "x === x".toList = ['x', ' ', '=', '=', '=', ' ', 'x'] := by simp
  have hderived : Expr.DerivedFrom "x === x" (.binary .strictEq (.ident "x") (.ident "x")) := by
    rw [Expr.derivedFrom_iff_ofTokens?, htext]
    rfl
  have hlimits : Expr.checkLimits "x === x" = .ok () := by
    rw [Expr.checkLimits, if_neg (by decide), htext]
    rfl
  have hsame := (hvariable context "x" _ rfl .strictEq (by decide)).2 _ hderived hlimits
  exact ⟨huv, htrans v u v hvu huv, hloose u v huv, hw, hww, hfield, hsame⟩

end Value
end ActionTree
