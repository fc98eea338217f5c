import Lobu.Foundation.Text

namespace Lobu.Foundation

/-! # SQL text

The lexical rules of PostgreSQL for what comes before the first token: white space, comments to the
end of a line, and comments in brackets, which nest.
-/

def isSqlSpace (c : Char) : Bool :=
  decide (9 ≤ c.toNat ∧ c.toNat ≤ 13) || c == ' '

/-- What follows a comment that goes to the end of its line. -/
def afterLine (text : List Char) : List Char :=
  text.dropWhile fun c => !(c == '\n' || c == '\r')

/-- What follows a comment in brackets, with so many others open in it. -/
def afterBlock : Nat → List Char → Option (List Char)
  | 0, '*' :: '/' :: rest => some rest
  | depth + 1, '*' :: '/' :: rest => afterBlock depth rest
  | depth, '/' :: '*' :: rest => afterBlock (depth + 1) rest
  | depth, _ :: rest => afterBlock depth rest
  | _, [] => none

theorem afterLine_length (text : List Char) : (afterLine text).length ≤ text.length :=
  (List.dropWhile_sublist _).length_le

theorem afterBlock_length {depth : Nat} {text rest : List Char}
    (closed : afterBlock depth text = some rest) : rest.length < text.length := by
  fun_induction afterBlock depth text with
  | case1 => cases closed; simp only [List.length_cons]; omega
  | case2 depth others ih => have shorter := ih closed; simp only [List.length_cons]; omega
  | case3 depth others ih => have shorter := ih closed; simp only [List.length_cons]; omega
  | case4 depth c others _ _ _ ih => have shorter := ih closed; simp only [List.length_cons]; omega
  | case5 => cases closed

/-- What follows the leading white space and comments, unless a comment never ends. -/
def skipTrivia : List Char → Option (List Char)
  | '-' :: '-' :: rest => skipTrivia (afterLine rest)
  | '/' :: '*' :: rest =>
    match _ : afterBlock 0 rest with
    | none => none
    | some after => skipTrivia after
  | c :: rest => if isSqlSpace c then skipTrivia rest else some (c :: rest)
  | [] => some []
termination_by text => text.length
decreasing_by
  · have shorter := afterLine_length rest
    simp only [List.length_cons]
    omega
  · have shorter := afterBlock_length ‹_›
    simp only [List.length_cons]
    omega
  · simp only [List.length_cons]
    omega

section Trivia

variable {c : Char} {text rest : List Char}

theorem skipTrivia_nil : skipTrivia [] = some [] := by
  rw [skipTrivia]

theorem skipTrivia_line : skipTrivia ('-' :: '-' :: rest) = skipTrivia (afterLine rest) := by
  rw [skipTrivia]

theorem skipTrivia_block : skipTrivia ('/' :: '*' :: rest) = (afterBlock 0 rest).bind skipTrivia := by
  rw [skipTrivia]
  split
  · rename_i unclosed
    rw [unclosed, Option.bind_none]
  · rename_i after closed
    rw [closed, Option.bind_some]

/-- A text that begins neither with white space nor with a comment. -/
def beginsToken : List Char → Bool
  | '-' :: '-' :: _ => false
  | '/' :: '*' :: _ => false
  | c :: _ => !isSqlSpace c
  | [] => true

theorem skipTrivia_space (space : isSqlSpace c = true) : skipTrivia (c :: rest) = skipTrivia rest := by
  rw [skipTrivia.eq_def]
  split
  · rename_i dashes
    cases dashes
    cases space
  · rename_i opened
    cases opened
    cases space
  · rename_i same
    cases same
    rw [if_pos space]
  · rename_i nothing
    cases nothing

theorem skipTrivia_token (begins : beginsToken text = true) : skipTrivia text = some text := by
  rw [skipTrivia.eq_def]
  split
  · cases begins
  · cases begins
  · rename_i c rest notLine notBlock
    have letter : isSqlSpace c = false := by
      unfold beginsToken at begins
      split at begins
      · cases begins
      · cases begins
      · rename_i same
        cases same
        simpa using begins
      · rename_i nothing
        cases nothing
    rw [if_neg (by rw [letter]; decide)]
  · rfl

theorem beginsToken_cons (notLine : ∀ more, c = '-' → rest = '-' :: more → False)
    (notBlock : ∀ more, c = '/' → rest = '*' :: more → False) (letter : ¬ isSqlSpace c = true) :
    beginsToken (c :: rest) = true := by
  unfold beginsToken
  split
  · rename_i more dashes
    cases dashes
    exact (notLine more rfl rfl).elim
  · rename_i more opened
    cases opened
    exact (notBlock more rfl rfl).elim
  · rename_i same
    cases same
    simpa using letter
  · rfl

theorem beginsToken_of_skipTrivia (skipped : skipTrivia text = some rest) : beginsToken rest = true := by
  fun_induction skipTrivia text with
  | case1 _ ih => exact ih skipped
  | case2 => cases skipped
  | case3 _ _ _ ih => exact ih skipped
  | case4 _ _ _ _ _ ih => exact ih skipped
  | case5 c others notLine notBlock letter =>
    cases skipped
    exact beginsToken_cons notLine notBlock letter
  | case6 =>
    cases skipped
    rfl

end Trivia

/-- A part of a name that is not quoted. -/
def isNamePart (c : Char) : Bool :=
  c.isAlphanum || c == '_' || c == '$' || decide (128 ≤ c.toNat)

/-- The word that a text begins with, in the letters in which it is looked up. -/
def firstWord (text : List Char) : List Char :=
  (text.takeWhile isNamePart).map Char.toLower

example : skipTrivia "/* /* a */ b */ -- c\r SELECT".toList = some "SELECT".toList := by
  decide +kernel

end Lobu.Foundation
