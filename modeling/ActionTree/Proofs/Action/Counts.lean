/-
# Numbers of iterations

A loop is to be repeated an integral number of times, which a document may write as `3` or
as `3.0`. What counts is the exact value of the number (`Number.EqualsInt`). A signed 64-bit
integer is taken as it is, however it is written, and every other number is refused, save
at one end: an unsigned integer is rounded to binary64 before it is compared, and the upper
bound is too, so that it comes out one too large. Thus `2 ^ 63` and the `2 ^ 10` integers
behind it, which are rounded down to it, pass for the bound and stand for `2 ^ 63 - 1`.

Key definitions: `Number.EqualsInt`.
Key theorems: `Action.count?_of_signed`, `Action.count?_of_clamped`, `Action.count?_eq_none`,
`Action.loop_of_number`, `Action.not_loop_exact`.
-/
import ActionTree.Proofs.Action.Nodes
import ActionTree.Proofs.Binary64

namespace ActionTree

/-- A JSON number is that integer. -/
def Number.EqualsInt : Number → Int → Prop
  | .int value _, n => value = n
  | .float x _, n => Binary64.EqualsInt x n

namespace Action

open Binary64 (integer? integer?_eq_some integer?_ofInt nearestQuotient nearestQuotient_le_iff)

/-! ### Binary64 numbers -/

variable {number : Number} {x : Float} {n : Int}

theorem ofIntClamp_eq (hlo : -0x8000000000000000 ≤ n) (hhi : n < 0x8000000000000000) :
    Int64.ofIntClamp n = Int64.ofInt n := by
  have hmin : Int64.minValue.toInt ≤ n := hlo
  have hmax : n ≤ Int64.maxValue.toInt := Int.le_sub_one_of_lt hhi
  rw [← Int64.ofIntLE_eq_ofInt hmin hmax, Int64.ofIntLE_eq_ofIntClamp]

/-- A number within the bounds is taken as the integer that it is. -/
theorem clamp?_eq (h : integer? x = some n) (hlo : -0x8000000000000000 ≤ n)
    (hhi : n ≤ 0x8000000000000000) : count?.clamp? x = some (Int64.ofIntClamp n) := by
  rw [count?.clamp?, h]
  exact if_pos ⟨hlo, hhi⟩

theorem clamp?_eq_none
    (h : ∀ n, integer? x = some n → n < -0x8000000000000000 ∨ 0x8000000000000000 < n) :
    count?.clamp? x = none := by
  unfold count?.clamp?
  cases hx : integer? x with
  | none => rfl
  | some n =>
    have := h n hx
    exact if_neg (by omega)

/-! ### Numbers of documents -/

/-- **A signed 64-bit integer is taken exactly**, whether it is written as one or not. -/
theorem count?_of_signed (h : number.EqualsInt n) (hlo : -0x8000000000000000 ≤ n)
    (hhi : n < 0x8000000000000000) : count? number = some (Int64.ofInt n) := by
  cases number with
  | int value hv =>
    obtain rfl : value = n := h
    exact if_pos hhi
  | float x hx =>
    have hfound : integer? x = some n := (integer?_eq_some x n).2 h
    rw [count?, clamp?_eq hfound hlo (by omega), ofIntClamp_eq hlo hhi]

/-- **The integers that are rounded down to the bound pass for it.** Of the binary64 numbers
this is one only. -/
theorem count?_of_clamped (h : number.EqualsInt n) (hlo : 0x8000000000000000 ≤ n)
    (hhi : n ≤ 0x8000000000000400) : count? number = some Int64.maxValue := by
  have hclamp : Int64.ofIntClamp 0x8000000000000000 = Int64.maxValue := by decide
  cases number with
  | int value hv =>
    obtain rfl : value = n := h
    have hnot : ¬ value < 0x8000000000000000 := by omega
    have hround := integer?_ofInt hlo hv.2
    have hbound : nearestQuotient value.toNat 1024 * 2048 = 0x8000000000000000 := by
      have := (nearestQuotient_le_iff (m := value.toNat) (by omega)).2 (by omega)
      have := (Binary64.nearestQuotient_bounds (m := value.toNat) (by omega) (by omega)).1
      omega
    have hvalue : (nearestQuotient value.toNat 1024 : Int) * 2048 = 0x8000000000000000 := by
      omega
    rw [hvalue] at hround
    rw [count?, if_neg hnot, Number.toFloat, clamp?_eq hround (by decide) (by decide), hclamp]
  | float x hx =>
    have hdvd : 2048 ∣ n := Binary64.EqualsInt.dvd h hlo
    obtain rfl : n = 0x8000000000000000 := by omega
    have hfound := (integer?_eq_some x _).2 h
    rw [count?, clamp?_eq hfound (by decide) (by decide), hclamp]

/-- **Every other number is refused**, be it a fraction or too large or too small. -/
theorem count?_eq_none
    (h : ∀ n, number.EqualsInt n → n < -0x8000000000000000 ∨ 0x8000000000000400 < n) :
    count? number = none := by
  cases number with
  | int value hv =>
    have hlarge : 0x8000000000000400 < value := by
      have := h value rfl
      omega
    have hnot : ¬ value < 0x8000000000000000 := by omega
    have hround := integer?_ofInt (n := value) (by omega) hv.2
    rw [count?, if_neg hnot, Number.toFloat]
    refine clamp?_eq_none fun n hn => .inr ?_
    obtain rfl : (nearestQuotient value.toNat 1024 : Int) * 2048 = n :=
      Option.some.inj (hround.symm.trans hn)
    have := not_congr (nearestQuotient_le_iff (m := value.toNat) (by omega))
    omega
  | float x hx =>
    refine clamp?_eq_none fun n hn => ?_
    have := h n ((integer?_eq_some x n).1 hn)
    omega

/-! ### Loops -/

/-- The document of a loop without a child. -/
def loopDocument (number : Number) : Fields Json :=
  [("iterations", .num number), ("type", .str "loop")]

section

variable {fields : Fields Json} {body : Option Action}
  (ht : fields.get? "type" = some (.str ActionKind.loop.tag))
  (hn : fields.get? "iterations" = some (.num number))
  (hc : childAt (.obj fields) "action" = .ok body)

include ht hn hc

/-- A loop whose child can be read is read as far as its number goes. -/
theorem ofJson_of_number : ofJson (.obj fields) = match count? number with
    | some iterations => .ok (loop iterations body)
    | none => .error (.invalidField .iterations) := by
  have hn : fields.get? ActionField.iterations.name = some (.num number) := hn
  rw [ofJson_loop ht, hc, iterationsOf, hn]
  dsimp only
  cases count? number <;> rfl

theorem ofJson_of_signed (h : number.EqualsInt n) (hlo : -0x8000000000000000 ≤ n)
    (hhi : n < 0x8000000000000000) : ofJson (.obj fields) = .ok (loop (Int64.ofInt n) body) := by
  rw [ofJson_of_number ht hn hc, count?_of_signed h hlo hhi]

theorem ofJson_of_clamped (h : number.EqualsInt n) (hlo : 0x8000000000000000 ≤ n)
    (hhi : n ≤ 0x8000000000000400) : ofJson (.obj fields) = .ok (loop Int64.maxValue body) := by
  rw [ofJson_of_number ht hn hc, count?_of_clamped h hlo hhi]

theorem ofJson_of_refused
    (h : ∀ n, number.EqualsInt n → n < -0x8000000000000000 ∨ 0x8000000000000400 < n) :
    ofJson (.obj fields) = .error (.invalidField .iterations) := by
  rw [ofJson_of_number ht hn hc, count?_eq_none h]

/-- **What a document of a loop makes of a number**: the integer that it is, if this is a
signed 64-bit integer; the greatest of these, if it is one of the next `2 ^ 10 + 1`; and a
fault otherwise. -/
theorem loop_of_number :
    (∀ n, number.EqualsInt n → -0x8000000000000000 ≤ n → n < 0x8000000000000000 →
      ∃ iterations : Int64, iterations.toInt = n ∧
        ofJson (.obj fields) = .ok (loop iterations body)) ∧
    (∀ n, number.EqualsInt n → 0x8000000000000000 ≤ n → n ≤ 0x8000000000000400 →
      ofJson (.obj fields) = .ok (loop Int64.maxValue body)) ∧
    ((∀ n, number.EqualsInt n → n < -0x8000000000000000 ∨ 0x8000000000000400 < n) →
      ofJson (.obj fields) = .error (.invalidField .iterations)) :=
  ⟨fun _ h hlo hhi =>
      ⟨_, Int64.toInt_ofInt_of_le hlo hhi, ofJson_of_signed ht hn hc h hlo hhi⟩,
    fun _ h hlo hhi => ofJson_of_clamped ht hn hc h hlo hhi,
    fun h => ofJson_of_refused ht hn hc h⟩

end

/-- `3.0` is three. -/
theorem loop_of_number_three : ∃ iterations : Int64, iterations.toInt = 3 ∧
    ofJson (.obj (loopDocument (.float 3.0 (by decide)))) = .ok (loop iterations none) := by
  let number : Number := .float 3.0 (by decide)
  have hn : (loopDocument number).get? "iterations" = some (.num number) := rfl
  have hthree : number.EqualsInt 3 := (integer?_eq_some 3.0 3).1 (by decide)
  exact (loop_of_number rfl hn rfl).1 3 hthree (by decide) (by decide)

/-- **Not only signed integers are taken**: `2 ^ 63` is, which no signed 64-bit integer is. -/
theorem not_loop_exact : ¬ ∀ (fields : Fields Json) (number : Number) (body : Option Action),
    fields.get? "type" = some (.str ActionKind.loop.tag) →
    fields.get? "iterations" = some (.num number) →
    childAt (.obj fields) "action" = .ok body →
    (∀ n, number.EqualsInt n → -0x8000000000000000 ≤ n → n < 0x8000000000000000 →
      ∃ iterations : Int64, iterations.toInt = n ∧
        ofJson (.obj fields) = .ok (loop iterations body)) ∧
    ((∀ n, number.EqualsInt n → ¬ (-0x8000000000000000 ≤ n ∧ n < 0x8000000000000000)) →
      ofJson (.obj fields) = .error (.invalidField .iterations)) := by
  intro h
  let number : Number := .int 0x8000000000000000 (by decide)
  have hn : (loopDocument number).get? "iterations" = some (.num number) := rfl
  have hok : ofJson (.obj (loopDocument number)) = .ok (loop Int64.maxValue none) :=
    ofJson_of_clamped rfl hn rfl rfl (by decide) (by decide)
  have hfault := (h (loopDocument number) number none rfl hn rfl).2
    (fun n hn => by
      obtain rfl : 0x8000000000000000 = n := hn
      decide)
  rw [hok] at hfault
  cases hfault

end Action
end ActionTree
