import Lobu.Foundation.RegExp

namespace Lobu.Sources

open Lobu.Foundation

/-! # Globs

`sources/glob.ts`: a glob is written out as a regular expression, and a path is tested
against it.
-/

/-- What the loop of `globToRegExp` appends.  The branch for a bare `**` appends what the one
for any other does. -/
def globTerms : List Char → List Char
  | [] => []
  | '*' :: '*' :: '/' :: rest => ['(', '?', ':', '.', '*', '/', ')', '?'] ++ globTerms rest
  | '*' :: '*' :: rest => ['.', '*'] ++ globTerms rest
  | '*' :: rest => ['[', '^', '/', ']', '*'] ++ globTerms rest
  | '?' :: rest => ['[', '^', '/', ']'] ++ globTerms rest
  | '/' :: rest => '/' :: globTerms rest
  | c :: rest =>
    if c ∈ ['.', '(', ')', '+', '|', '^', '$', '{', '}', '[', ']', '\\'] then
      '\\' :: c :: globTerms rest
    else c :: globTerms rest

/-- The text that is given to `new RegExp`. -/
def globToRegExp (glob : List Char) : List Char :=
  '^' :: (globTerms glob ++ ['$'])

/-- `sep` is the separator of the platform. -/
def norm (sep : Char) (relativePath : List Char) : List Char :=
  if sep = '/' then relativePath else relativePath.map fun c => if c = sep then '/' else c

/-- None where `new RegExp` throws. -/
def matchesGlob (sep : Char) (relativePath glob : List Char) : Option Bool :=
  (Pattern.compile (globToRegExp glob)).map fun re => re.test ((norm sep relativePath).flatMap utf16)

inductive Piece where
  | literal (c : Char)
  | run
  | character
  | directories
  | anything

/-- `**/`, `**`, `*`, `?` and single characters, from the left. -/
def pieces : List Char → List Piece
  | [] => []
  | '*' :: '*' :: '/' :: rest => .directories :: pieces rest
  | '*' :: '*' :: rest => .anything :: pieces rest
  | '*' :: rest => .run :: pieces rest
  | '?' :: rest => .character :: pieces rest
  | c :: rest => .literal c :: pieces rest

def Piece.Takes : Piece → List Char → Prop
  | literal c, text => text = [c]
  | run, text => '/' ∉ text
  | character, text => ∃ c, text = [c] ∧ c ≠ '/'
  | directories, text => ∃ segments : List (List Char), (∀ segment ∈ segments, '/' ∉ segment) ∧
      text = segments.flatMap fun segment => segment ++ ['/']
  | anything, _ => True

/-- Each piece takes its part of the text, in order. -/
def Reads {α : Type} (takes : Piece → List α → Prop) (pieces : List Piece) (text : List α) : Prop :=
  ∃ parts, List.Forall₂ takes pieces parts ∧ parts.flatten = text

/-- The language of a glob as the module's comments give it. -/
inductive InLanguage : List Char → List Char → Prop
  | pieces {glob path : List Char} (reads : Reads Piece.Takes (pieces glob) path) : InLanguage glob path
  | directory {glob path : List Char} (itself : InLanguage glob path) :
      InLanguage (glob ++ ['/', '*', '*']) path

/-- What the expression for a piece matches of the code units of a path. -/
def Piece.TakesUnits : Piece → List Nat → Prop
  | literal c, units => units = utf16 c
  | run, units => 47 ∉ units
  | character, units => ∃ unit, units = [unit] ∧ unit ≠ 47
  | directories, units => units = [] ∨ ∃ front, units = front ++ [47] ∧ ∀ unit ∈ front, unit ∉ lineTerminators
  | anything, units => ∀ unit ∈ units, unit ∉ lineTerminators

namespace Piece

def pattern : Piece → List Pattern
  | literal c => (utf16 c).map fun unit => .one (.just unit)
  | run => [.many (.one (.noneOf [47]))]
  | character => [.one (.noneOf [47])]
  | directories => [.maybe (.sequence [.many (.one .dot), .one (.just 47)])]
  | anything => [.many (.one .dot)]

end Piece

section Reading

variable {α : Type} {takes : Piece → List α → Prop}

theorem reads_nil {text : List α} : Reads takes [] text ↔ text = [] := by
  constructor
  · intro ⟨parts, each, whole⟩
    cases each
    exact whole.symm
  · intro nothing
    exact ⟨[], .nil, nothing.symm⟩

theorem reads_cons {piece : Piece} {pieces : List Piece} {text : List α} :
    Reads takes (piece :: pieces) text ↔
      ∃ front back, front ++ back = text ∧ takes piece front ∧ Reads takes pieces back := by
  constructor
  · intro ⟨parts, each, whole⟩
    cases each with
    | cons first rest => exact ⟨_, _, whole, first, _, rest, rfl⟩
  · intro ⟨front, back, whole, first, parts, rest, joined⟩
    exact ⟨front :: parts, .cons first rest, by rw [List.flatten_cons, joined, whole]⟩

end Reading

theorem utf16_ne_nil (c : Char) : utf16 c ≠ [] := by
  unfold utf16
  split <;> simp

theorem mem_prod_units {units word : List Nat} :
    word ∈ ((units.map fun unit => Pattern.one (.just unit)).map Pattern.language).prod ↔ word = units := by
  induction units generalizing word with
  | nil => exact Language.mem_one word
  | cons unit units ih =>
    rw [List.map_cons, List.map_cons, List.prod_cons, Language.mem_mul]
    constructor
    · intro ⟨front, ⟨other, single, has⟩, back, inRest, whole⟩
      rw [← whole, ih.mp inRest, single, beq_iff_eq.mp has]
      rfl
    · intro same
      exact ⟨[unit], ⟨unit, rfl, beq_self_eq_true unit⟩, units, ih.mpr rfl, same.symm⟩

theorem has_noneOf {unit : Nat} : (UnitClass.noneOf [47]).has unit = true ↔ unit ≠ 47 := by
  simp [UnitClass.has]

theorem has_dot {unit : Nat} : UnitClass.dot.has unit = true ↔ unit ∉ lineTerminators := by
  simp [UnitClass.has]

theorem mem_pattern (piece : Piece) {word : List Nat} :
    word ∈ (piece.pattern.map Pattern.language).prod ↔ piece.TakesUnits word := by
  cases piece with
  | literal c => exact mem_prod_units
  | run =>
    rw [Piece.pattern, List.map_singleton, List.prod_singleton, Pattern.mem_many_one]
    simp only [has_noneOf]
    exact ⟨fun each slash => each 47 slash rfl, fun none unit member same => none (same ▸ member)⟩
  | character =>
    rw [Piece.pattern, List.map_singleton, List.prod_singleton]
    constructor
    · intro ⟨unit, single, has⟩
      exact ⟨unit, single, has_noneOf.mp has⟩
    · intro ⟨unit, single, other⟩
      exact ⟨unit, single, has_noneOf.mpr other⟩
  | directories =>
    rw [Piece.pattern, List.map_singleton, List.prod_singleton]
    have inner : ∀ text, text ∈ (Pattern.sequence [.many (.one .dot), .one (.just 47)]).language ↔
        ∃ front, text = front ++ [47] ∧ ∀ unit ∈ front, unit ∉ lineTerminators := by
      intro text
      rw [Pattern.language_sequence, List.map_cons, List.prod_cons, List.map_singleton,
        List.prod_singleton, Language.mem_mul]
      constructor
      · intro ⟨front, dots, back, ⟨unit, single, has⟩, whole⟩
        have slash : unit = 47 := beq_iff_eq.mp has
        refine ⟨front, by rw [← whole, single, slash], fun unit member => ?_⟩
        exact has_dot.mp (Pattern.mem_many_one.mp dots unit member)
      · intro ⟨front, whole, dots⟩
        refine ⟨front, Pattern.mem_many_one.mpr fun unit member => has_dot.mpr (dots unit member),
          [47], ⟨47, rfl, rfl⟩, whole.symm⟩
    rw [Pattern.maybe, Pattern.language, Language.mem_add, inner]
    exact Iff.rfl
  | anything =>
    rw [Piece.pattern, List.map_singleton, List.prod_singleton, Pattern.mem_many_one]
    simp only [has_dot]
    exact Iff.rfl

theorem mem_patterns {pieces : List Piece} {word : List Nat} :
    word ∈ ((pieces.flatMap Piece.pattern).map Pattern.language).prod ↔ Reads Piece.TakesUnits pieces word := by
  induction pieces generalizing word with
  | nil => exact (Language.mem_one word).trans reads_nil.symm
  | cons piece pieces ih =>
    rw [List.flatMap_cons, List.map_append, List.prod_append, Language.mem_mul, reads_cons]
    simp only [mem_pattern, ih]
    constructor
    · intro ⟨front, first, back, rest, whole⟩
      exact ⟨front, back, whole, first, rest⟩
    · intro ⟨front, back, whole, first, rest⟩
      exact ⟨front, first, back, rest, whole⟩

namespace Reading

open Pattern

variable {groups : List Group} {group : Group}

theorem parseTerms_literal {c : Char} (rest : List Char) (plain : c ∉ syntaxCharacters ∨ c = '/') :
    parseTerms groups group (c :: rest) = parseTerms groups (group.addUnits (utf16 c)) rest := by
  have other : ∀ d ∈ syntaxCharacters, d ≠ '/' → c ≠ d := by
    intro d special notSlash same
    rcases plain with plain | slash
    · exact plain (same ▸ special)
    · exact notSlash (same.symm.trans slash)
  rw [parseTerms]
  · exact if_neg fun special => other c special.1 special.2 rfl
  · exact other '$' (by decide) (by decide)
  · exact fun _ same => absurd same (other '(' (by decide) (by decide))
  · exact other ')' (by decide) (by decide)
  · exact other '*' (by decide) (by decide)
  · exact other '?' (by decide) (by decide)
  · exact other '.' (by decide) (by decide)
  · exact fun _ _ same => absurd same (other '[' (by decide) (by decide))
  · exact fun _ _ same => absurd same (other '\\' (by decide) (by decide))

theorem parseTerms_escaped {c : Char} (rest : List Char) (special : c ∈ syntaxCharacters) :
    parseTerms groups group ('\\' :: c :: rest) = parseTerms groups (group.addUnits (utf16 c)) rest := by
  rw [parseTerms, if_pos special]

theorem terms_quantified (atom : Pattern) :
    Group.terms ⟨atom :: (group.last.toList ++ group.before), none⟩ = group.terms ++ [atom] := by
  simp [Group.terms]

variable {rest : List Char}

theorem parseTerms_directories :
    parseTerms groups group ('(' :: '?' :: ':' :: '.' :: '*' :: '/' :: ')' :: '?' :: rest) =
      parseTerms groups ⟨.maybe (.sequence [.many (.one .dot), .one (.just 47)]) ::
        (group.last.toList ++ group.before), none⟩ rest := rfl

theorem parseTerms_anything :
    parseTerms groups group ('.' :: '*' :: rest) =
      parseTerms groups ⟨.many (.one .dot) :: (group.last.toList ++ group.before), none⟩ rest := rfl

theorem parseTerms_run :
    parseTerms groups group ('[' :: '^' :: '/' :: ']' :: '*' :: rest) =
      parseTerms groups ⟨.many (.one (.noneOf [47])) :: (group.last.toList ++ group.before), none⟩ rest :=
  rfl

theorem parseTerms_character :
    parseTerms groups group ('[' :: '^' :: '/' :: ']' :: rest) =
      parseTerms groups (group.add (.one (.noneOf [47]))) rest := rfl

theorem terms_piece {piece : Piece} {after : Group} (taken : after.terms = group.terms ++ piece.pattern)
    (ih : ∀ {group : Group}, parseTerms [] group (globTerms rest ++ ['$']) =
      some (sequence (group.terms ++ (pieces rest).flatMap Piece.pattern))) :
    parseTerms [] after (globTerms rest ++ ['$']) =
      some (sequence (group.terms ++ (piece :: pieces rest).flatMap Piece.pattern)) := by
  rw [ih, taken, List.flatMap_cons, List.append_assoc]

theorem parseTerms_glob (glob : List Char) :
    parseTerms [] group (globTerms glob ++ ['$']) =
      some (sequence (group.terms ++ (pieces glob).flatMap Piece.pattern)) := by
  induction glob using pieces.induct generalizing group with
  | case1 => simp [globTerms, pieces, parseTerms]
  | case2 rest ih =>
    rw [globTerms, pieces]
    exact parseTerms_directories.trans (terms_piece (terms_quantified _) ih)
  | case3 rest notSlash ih =>
    rw [globTerms, pieces]
    · exact parseTerms_anything.trans (terms_piece (terms_quantified _) ih)
    all_goals exact notSlash
  | case4 rest notSlash notStar ih =>
    rw [globTerms, pieces]
    · exact parseTerms_run.trans (terms_piece (terms_quantified _) ih)
    all_goals assumption
  | case5 rest ih =>
    rw [globTerms, pieces]
    exact parseTerms_character.trans (terms_piece (Group.terms_add _ _) ih)
  | case6 c rest notDirectories notAnything notRun notCharacter ih =>
    have parsed : parseTerms [] (group.addUnits (utf16 c)) (globTerms rest ++ ['$']) =
        some (sequence (group.terms ++ (.literal c :: pieces rest).flatMap Piece.pattern)) :=
      terms_piece (Group.terms_addUnits group (utf16 c)) ih
    rw [pieces]
    · rw [← parsed]
      by_cases slash : c = '/'
      · rw [slash, globTerms]
        exact parseTerms_literal _ (.inr rfl)
      · rw [globTerms]
        · split
          · rename_i special
            refine parseTerms_escaped _ ?_
            simp only [List.mem_cons, List.not_mem_nil, or_false] at special
            simp only [syntaxCharacters, List.mem_cons, List.not_mem_nil, or_false]
            grind
          · rename_i ordinary
            refine parseTerms_literal _ (.inl fun special => ?_)
            simp only [syntaxCharacters, List.mem_cons, List.not_mem_nil, or_false] at special ordinary
            grind
        all_goals assumption
    all_goals assumption

theorem compile_globToRegExp (glob : List Char) :
    compile (globToRegExp glob) = some (sequence ((pieces glob).flatMap Piece.pattern)) :=
  parseTerms_glob glob

end Reading

theorem matchesGlob_iff {sep : Char} {path glob : List Char} :
    matchesGlob sep path glob = some true ↔ Reads Piece.TakesUnits (pieces glob) ((norm sep path).flatMap utf16) := by
  rw [matchesGlob, Reading.compile_globToRegExp, Option.map_some, Option.some.injEq,
    Pattern.test_iff, Pattern.language_sequence, mem_patterns]

end Lobu.Sources
