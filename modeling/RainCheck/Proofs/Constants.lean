import Mathlib.Tactic.Common
import RainCheck.Builtin

/-!
# Types of constants

The value of an operation on constants has the type of the operation, and operations on constants of one type raise no
fault.  So a value that is written on a node always has the type of the node.
-/

namespace RainCheck

namespace Value

theorem unary?_type {op : UnaryOp} {v w : Value} (h : unary? op v = some w) : w.type = v.type := by
  cases op <;> cases v <;> simp only [unary?, Option.some.injEq, reduceCtorEq] at h <;> subst h <;> rfl

/-- The type of the value of an operator on constants of one type. -/
def resultType (op : BinaryOp) (t : TypeId) : TypeId := if op.isComparison then TypeId.bool else t

private theorem integer?_type {n : Nat} {make : BitVec n → Value} {t : TypeId}
    (hmake : ∀ x, (make x).type = t) {op : BinaryOp}
    {l r : BitVec n} {w : Value} (h : integer? make op l r = some w) : w.type = resultType op t := by
  cases op
  case div | rem =>
    simp only [integer?, ite_eq_iff, reduceCtorEq, and_false, false_or, Option.some.injEq] at h
    rw [← h.2]
    exact hmake _
  all_goals
    cases h
    first | exact hmake _ | rfl

private theorem float?_type {α : Type} [Add α] [Sub α] [Mul α] [Div α] [BEq α] [LT α]
    [DecidableLT α] [LE α] [DecidableLE α]
    {make : α → Value} {t : TypeId} (hmake : ∀ x, (make x).type = t) {op : BinaryOp} {l r : α} {w : Value}
    (h : float? make op l r = some w) : w.type = resultType op t := by
  cases op <;> cases h <;> first | exact hmake _ | rfl

private theorem bool?_type {op : BinaryOp} {l r : Bool} {w : Value} (h : bool? op l r = some w) :
    w.type = resultType op TypeId.bool := by
  cases op <;> cases h <;> rfl

/-- An operator on constants of one type raises no fault, and its value has the type of the operation. -/
theorem binary?_type (op : BinaryOp) {l r : Value} (h : l.type = r.type) :
    ∃ o, binary? op l r = .ok o ∧ ∀ w, o = some w → w.type = resultType op l.type := by
  cases l <;> cases r
  case i32.i32 => exact ⟨_, rfl, fun _ h => integer?_type (t := TypeId.i32) (fun _ => rfl) h⟩
  case i64.i64 => exact ⟨_, rfl, fun _ h => integer?_type (t := TypeId.i64) (fun _ => rfl) h⟩
  case bool.bool => exact ⟨_, rfl, fun _ => bool?_type⟩
  case f32.f32 => exact ⟨_, rfl, fun _ h => float?_type (t := TypeId.f32) (fun _ => rfl) h⟩
  case f64.f64 => exact ⟨_, rfl, fun _ h => float?_type (t := TypeId.f64) (fun _ => rfl) h⟩
  all_goals cases h

end Value

namespace Builtin

private theorem mapFloat_type {f : Float → Float} {v w : Value} (h : mapFloat f v = some w) : w.type = v.type := by
  cases v <;> cases h <;> rfl

private theorem countBits_type {count : BitVec 64 → Nat → Int} {v w : Value} (h : countBits count v = some w) :
    w.type = v.type := by
  cases v <;> cases h <;> rfl

/-- The value of a builtin with one argument has the type of its result. -/
private theorem value1?_type {b : Builtin} {v w : Value} (h : b.value1? v = some w) :
    w.type = b.family.result v.type := by
  cases b
  case sqrt => exact mapFloat_type h
  case abs => exact mapFloat_type h
  case clz =>
    rw [value1?] at h
    exact countBits_type h
  case ctz =>
    rw [value1?] at h
    exact countBits_type h
  case popcnt =>
    rw [value1?] at h
    exact countBits_type h
  all_goals cases v <;> cases h <;> rfl

private theorem mapFloats_type {f : Float → Float → Float} {x y : Value} (h : x.type = y.type) :
    ∃ o, mapFloats f x y = .ok o ∧ ∀ w, o = some w → w.type = x.type := by
  cases x <;> cases y
  case i32.i32 => exact ⟨none, rfl, by simp⟩
  case i64.i64 => exact ⟨none, rfl, by simp⟩
  case bool.bool => exact ⟨none, rfl, by simp⟩
  case f32.f32 => exact ⟨_, rfl, fun w hw => by cases hw; rfl⟩
  case f64.f64 => exact ⟨_, rfl, fun w hw => by cases hw; rfl⟩
  all_goals cases h

/-- The value of a builtin on constants of one type has the type of its result. -/
theorem value?_type {b : Builtin} {values : List Value} {t : TypeId} (hlen : values.length = b.family.arity)
    (h : ∀ v ∈ values, v.type = t) :
    ∃ o, b.value? values = .ok o ∧ ∀ w, o = some w → w.type = b.family.result t := by
  match values with
  | [] => cases b <;> cases hlen
  | [x] =>
    have hx : x.type = t := h x (by simp)
    exact ⟨_, rfl, fun w hw => by rw [value1?_type hw, hx]⟩
  | [x, y] =>
    have hx : x.type = t := h x (by simp)
    have hy : y.type = t := h y (by simp)
    have hresult : b.family.result t = t := by cases b <;> first | rfl | cases hlen
    rw [hresult, ← hx]
    cases b
    case min => exact mapFloats_type (hx.trans hy.symm)
    case max => exact mapFloats_type (hx.trans hy.symm)
    all_goals exact ⟨none, rfl, by simp⟩
  | _ :: _ :: _ :: _ => cases b <;> cases hlen

end Builtin

end RainCheck
