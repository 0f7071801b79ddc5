import FossilCore.Base.JsonSchema

/-!
# Comparing decoded values

`==` on decoded values: numbers compare by value, and everything else by its shape.
-/

namespace Base

namespace Json

/-- Numbers compare by value; the booleans are the numbers 0 and 1. -/
def numberOf : Json → Option ℚ
  | .bool b => some (if b then 1 else 0)
  | .int n => some n
  | .float x => if x.text.any Char.isDigit then some (Schema.numeral x.text) else none
  | _ => none

mutual

/-- `a == b` -/
def pyEq : Json → Json → Bool
  | .arr xs, .arr ys => pyEqItems xs ys
  | .obj fs, .obj gs => pyEqFields fs gs
  | a, b => a = b ∨ ((numberOf a).isSome ∧ numberOf a = numberOf b)

def pyEqItems : List Json → List Json → Bool
  | [], [] => true
  | x :: xs, y :: ys => pyEq x y && pyEqItems xs ys
  | _, _ => false

def pyEqFields : List (String × Json) → List (String × Json) → Bool
  | [], [] => true
  | (j, x) :: xs, (k, y) :: ys => j = k && pyEq x y && pyEqFields xs ys
  | _, _ => false

end

mutual

/-- Every value equals itself; a `NaN` is compared with the same object. -/
theorem pyEq_self : ∀ v : Json, pyEq v v = true
  | .null | .bool _ | .int _ | .float _ | .str _ => by simp [pyEq]
  | .arr xs => by simpa only [pyEq] using pyEqItems_self xs
  | .obj fs => by simpa only [pyEq] using pyEqFields_self fs

theorem pyEqItems_self : ∀ xs : List Json, pyEqItems xs xs = true
  | [] => by simp [pyEqItems]
  | x :: xs => by simp [pyEqItems, pyEq_self x, pyEqItems_self xs]

theorem pyEqFields_self : ∀ fs : List (String × Json), pyEqFields fs fs = true
  | [] => by simp [pyEqFields]
  | (_, x) :: fs => by simp [pyEqFields, pyEq_self x, pyEqFields_self fs]

end

end Json

end Base
