import Lobu.Foundation.Json
import Mathlib.Computability.Language

namespace Lobu.Foundation

/-! # Regular expressions

The regular expressions of JavaScript without flags, groups that capture, look-around and
counted repetition: their text, the languages they stand for, and `RegExp.prototype.test`.
They read a string by its UTF-16 code units.
-/

/-- `\n`, `\r`, U+2028 and U+2029. -/
def lineTerminators : List Nat := [0x0a, 0x0d, 0x2028, 0x2029]

inductive UnitClass where
  | just (unit : Nat)
  | dot
  | noneOf (units : List Nat)

def UnitClass.has : UnitClass → Nat → Bool
  | just unit, other => other == unit
  | dot, other => !lineTerminators.contains other
  | noneOf units, other => !units.contains other

inductive Pattern where
  | never
  | blank
  | one (units : UnitClass)
  | andThen (first second : Pattern)
  | either (first second : Pattern)
  | many (pattern : Pattern)

namespace Pattern

def maybe (pattern : Pattern) : Pattern := either blank pattern

def sequence (patterns : List Pattern) : Pattern := patterns.foldr andThen blank

def language : Pattern → Language Nat
  | never => 0
  | blank => 1
  | one units => {word | ∃ unit, word = [unit] ∧ units.has unit = true}
  | andThen first second => first.language * second.language
  | either first second => first.language + second.language
  | many pattern => KStar.kstar pattern.language

theorem language_sequence (patterns : List Pattern) :
    (sequence patterns).language = (patterns.map language).prod := by
  induction patterns with
  | nil => rfl
  | cons first patterns ih =>
    rw [List.map_cons, List.prod_cons, ← ih]
    rfl

variable {word : List Nat}

theorem mem_many_one {units : UnitClass} :
    word ∈ (many (one units)).language ↔ ∀ unit ∈ word, units.has unit = true := by
  rw [language, Language.mem_kstar]
  constructor
  · intro ⟨pieces, whole, each⟩ unit member
    rw [whole, List.mem_flatten] at member
    obtain ⟨piece, isPiece, inPiece⟩ := member
    obtain ⟨other, rfl, has⟩ := each piece isPiece
    rw [List.mem_singleton.mp inPiece]
    exact has
  · intro each
    refine ⟨word.map fun unit => [unit], ?_, fun piece member => ?_⟩
    · induction word with
      | nil => rfl
      | cons first word ih =>
        rw [List.map_cons, List.flatten_cons, ← ih fun unit later => each unit (List.mem_cons_of_mem _ later)]
        rfl
    · obtain ⟨unit, inWord, rfl⟩ := List.mem_map.mp member
      exact ⟨unit, rfl, each unit inWord⟩

def nullable : Pattern → Bool
  | never => false
  | blank => true
  | one _ => false
  | andThen first second => first.nullable && second.nullable
  | either first second => first.nullable || second.nullable
  | many _ => true

/-- What is left to match behind the unit. -/
def behind (unit : Nat) : Pattern → Pattern
  | never => never
  | blank => never
  | one units => if units.has unit then blank else never
  | andThen first second =>
    if first.nullable then either (andThen (first.behind unit) second) (second.behind unit)
    else andThen (first.behind unit) second
  | either first second => either (first.behind unit) (second.behind unit)
  | many pattern => andThen (pattern.behind unit) (many pattern)

/-- `RegExp.prototype.test` of an expression between `^` and `$`. -/
def test (pattern : Pattern) : List Nat → Bool
  | [] => pattern.nullable
  | unit :: word => (pattern.behind unit).test word

theorem nullable_iff {pattern : Pattern} : pattern.nullable = true ↔ [] ∈ pattern.language := by
  induction pattern with
  | never => exact iff_of_false Bool.false_ne_true (Language.notMem_zero [])
  | blank => exact iff_of_true rfl Language.nil_mem_one
  | one units => exact iff_of_false Bool.false_ne_true fun ⟨unit, empty, _⟩ => List.cons_ne_nil _ _ empty.symm
  | andThen first second ihFirst ihSecond =>
    rw [nullable, Bool.and_eq_true, ihFirst, ihSecond, language, Language.mem_mul]
    constructor
    · intro ⟨inFirst, inSecond⟩
      exact ⟨[], inFirst, [], inSecond, rfl⟩
    · intro ⟨front, inFirst, back, inSecond, whole⟩
      obtain ⟨rfl, rfl⟩ := List.append_eq_nil_iff.mp whole
      exact ⟨inFirst, inSecond⟩
  | either first second ihFirst ihSecond =>
    rw [nullable, Bool.or_eq_true, ihFirst, ihSecond, language, Language.mem_add]
  | many pattern _ => exact iff_of_true rfl (Language.nil_mem_kstar _)

theorem cons_mem_mul {first second : Language Nat} {unit : Nat} :
    unit :: word ∈ first * second ↔ (∃ front back, front ++ back = word ∧ unit :: front ∈ first ∧ back ∈ second) ∨
        [] ∈ first ∧ unit :: word ∈ second := by
  rw [Language.mem_mul]
  constructor
  · intro ⟨front, inFirst, back, inSecond, whole⟩
    cases front with
    | nil => exact .inr ⟨inFirst, whole ▸ inSecond⟩
    | cons other front =>
      obtain ⟨rfl, rest⟩ := List.cons.inj whole
      exact .inl ⟨front, back, rest, inFirst, inSecond⟩
  · intro cut
    rcases cut with ⟨front, back, rest, inFirst, inSecond⟩ | ⟨empty, inSecond⟩
    · exact ⟨unit :: front, inFirst, back, inSecond, by rw [List.cons_append, rest]⟩
    · exact ⟨[], empty, unit :: word, inSecond, rfl⟩

theorem cons_mem_kstar {pieces : Language Nat} {unit : Nat} :
    unit :: word ∈ KStar.kstar pieces ↔
      ∃ front back, front ++ back = word ∧ unit :: front ∈ pieces ∧ back ∈ KStar.kstar pieces := by
  constructor
  · intro member
    obtain ⟨words, whole, each⟩ := Language.mem_kstar_iff_exists_nonempty.mp member
    cases words with
    | nil => exact absurd whole (List.cons_ne_nil _ _)
    | cons first words =>
      obtain ⟨inPieces, filled⟩ := each first List.mem_cons_self
      cases first with
      | nil => exact absurd rfl filled
      | cons other front =>
        obtain ⟨rfl, rest⟩ := List.cons.inj whole
        refine ⟨front, words.flatten, rest.symm, inPieces, ?_⟩
        exact Language.join_mem_kstar fun word later => (each word (List.mem_cons_of_mem _ later)).1
  · intro ⟨front, back, rest, inPieces, inRest⟩
    obtain ⟨words, whole, each⟩ := Language.mem_kstar.mp inRest
    refine Language.mem_kstar.mpr ⟨(unit :: front) :: words, ?_, fun word member => ?_⟩
    · rw [← rest, whole]
      rfl
    · rcases List.mem_cons.mp member with rfl | later
      · exact inPieces
      · exact each word later

theorem mem_behind {pattern : Pattern} {unit : Nat} :
    word ∈ (pattern.behind unit).language ↔ unit :: word ∈ pattern.language := by
  induction pattern generalizing word with
  | never => exact iff_of_false (Language.notMem_zero _) (Language.notMem_zero _)
  | blank => exact iff_of_false (Language.notMem_zero _) (List.cons_ne_nil _ _)
  | one units =>
    rw [behind]
    constructor
    · intro member
      split at member
      · rename_i has
        rw [(Language.mem_one word).mp member]
        exact ⟨unit, rfl, has⟩
      · exact absurd member (Language.notMem_zero _)
    · intro ⟨other, whole, has⟩
      obtain ⟨rfl, rfl⟩ := List.cons.inj whole
      rw [if_pos has]
      exact Language.nil_mem_one
  | andThen first second ihFirst ihSecond =>
    have front : word ∈ (andThen (first.behind unit) second).language ↔
        ∃ front back, front ++ back = word ∧ unit :: front ∈ first.language ∧
          back ∈ second.language := by
      rw [language, Language.mem_mul]
      constructor
      · intro ⟨front, inFirst, back, inSecond, whole⟩
        exact ⟨front, back, whole, ihFirst.mp inFirst, inSecond⟩
      · intro ⟨front, back, whole, inFirst, inSecond⟩
        exact ⟨front, ihFirst.mpr inFirst, back, inSecond, whole⟩
    rw [language, cons_mem_mul, behind, ← nullable_iff]
    split
    · rename_i empty
      rw [language, Language.mem_add, front, ihSecond]
      simp only [empty, true_and]
    · rename_i filled
      rw [front]
      simp only [filled, Bool.false_eq_true, false_and, or_false]
  | either first second ihFirst ihSecond =>
    rw [behind, language, language, Language.mem_add, Language.mem_add, ihFirst, ihSecond]
  | many pattern ih =>
    rw [behind, language, language, cons_mem_kstar, Language.mem_mul]
    constructor
    · intro ⟨front, inPattern, back, inRest, whole⟩
      exact ⟨front, back, whole, ih.mp inPattern, inRest⟩
    · intro ⟨front, back, whole, inPattern, inRest⟩
      exact ⟨front, ih.mpr inPattern, back, inRest, whole⟩

theorem test_iff {pattern : Pattern} : pattern.test word = true ↔ word ∈ pattern.language := by
  induction word generalizing pattern with
  | nil => exact nullable_iff
  | cons unit word ih => rw [test, ih, mem_behind]

def syntaxCharacters : List Char :=
  ['^', '$', '\\', '.', '*', '+', '?', '(', ')', '[', ']', '{', '}', '|', '/']

/-- The terms of the group that is read, the last first; a quantifier may still follow the
last one. -/
structure Group where
  before : List Pattern
  last : Option Pattern

namespace Group

def empty : Group := ⟨[], none⟩

def terms (group : Group) : List Pattern := (group.last.toList ++ group.before).reverse

def add (group : Group) (atom : Pattern) : Group := ⟨group.last.toList ++ group.before, some atom⟩

def addUnits (group : Group) (units : List Nat) : Group :=
  units.foldl (fun group unit => group.add (one (.just unit))) group

def quantify (group : Group) (quantifier : Pattern → Pattern) : Option Group :=
  group.last.map fun atom => ⟨quantifier atom :: group.before, none⟩

theorem terms_add (group : Group) (atom : Pattern) : (group.add atom).terms = group.terms ++ [atom] := by
  simp [terms, add]

theorem terms_addUnits (group : Group) (units : List Nat) :
    (group.addUnits units).terms = group.terms ++ units.map fun unit => one (.just unit) := by
  induction units generalizing group with
  | nil => simp [addUnits]
  | cons unit units ih =>
    rw [addUnits, List.foldl_cons, ← addUnits, ih, terms_add, List.append_assoc]
    rfl

end Group

/-- Without the flag `u` a character outside the basic plane is two terms.  Of the classes only
`[^c]` is read, and `$` at the end only. -/
def parseTerms : List Group → Group → List Char → Option Pattern
  | _, _, [] => none
  | groups, group, '$' :: rest =>
    if rest = [] ∧ groups.isEmpty then some (sequence group.terms) else none
  | groups, group, '(' :: '?' :: ':' :: rest => parseTerms (group :: groups) .empty rest
  | groups, group, ')' :: rest =>
    match groups with
    | [] => none
    | outer :: groups => parseTerms groups (outer.add (sequence group.terms)) rest
  | groups, group, '*' :: rest =>
    match group.quantify many with
    | none => none
    | some group => parseTerms groups group rest
  | groups, group, '?' :: rest =>
    match group.quantify maybe with
    | none => none
    | some group => parseTerms groups group rest
  | groups, group, '.' :: rest => parseTerms groups (group.add (one .dot)) rest
  | groups, group, '[' :: '^' :: c :: ']' :: rest =>
    if c = '\\' ∨ c = ']' then none
    else parseTerms groups (group.add (one (.noneOf (utf16 c)))) rest
  | groups, group, '\\' :: c :: rest =>
    if c ∈ syntaxCharacters then parseTerms groups (group.addUnits (utf16 c)) rest else none
  | groups, group, c :: rest =>
    if c ∈ syntaxCharacters ∧ c ≠ '/' then none
    else parseTerms groups (group.addUnits (utf16 c)) rest

/-- `new RegExp(text)`, for a text that begins with `^`. -/
def compile (text : List Char) : Option Pattern :=
  match text with
  | '^' :: rest => parseTerms [] .empty rest
  | _ => none

end Pattern

end Lobu.Foundation
