import Mathlib.Data.List.DropRight
import Mathlib.Data.List.Infix

namespace Lobu.Foundation

/-! # Matches in a window

A text that arrives in pieces is searched for short matches through a window over its end.
-/

variable {α : Type} {limit size : Nat} {isMatch : List α → Bool} {text piece part : List α}

/-- Some part of the text, not empty and no longer than the limit, is a match. -/
def hasMatch (limit : Nat) (isMatch : List α → Bool) (text : List α) : Bool :=
  text.tails.any fun rest => rest.inits.any fun part =>
    !part.isEmpty && decide (part.length ≤ limit) && isMatch part

@[simp] theorem hasMatch_nil : hasMatch limit isMatch ([] : List α) = false := by
  simp [hasMatch]

end Lobu.Foundation
