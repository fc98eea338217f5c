import Lobu.Foundation.Transaction
import Lobu.StrictJson.Parser

namespace Lobu.StrictJson

open Lobu.Foundation

/-! # What the pieces of the parser read

For each function that reads characters: what it has read is spelled as the grammar says, and what
is spelled so is read.
-/

section Characters

variable {rest after text blank : List Char} {character : Char}

theorem skipWhitespace_blank (spaces : IsBlank blank)
    (begins : ∀ c ∈ rest.head?, isJsonSpace c = false) : skipWhitespace (blank ++ rest) = rest := by
  rw [skipWhitespace, List.dropWhile_append_of_pos spaces]
  cases rest with
  | nil => rfl
  | cons c rest => exact List.dropWhile_cons_of_neg (by simp [begins c rfl])

theorem skipWhitespace_split (rest : List Char) : ∃ blank, IsBlank blank ∧ rest = blank ++ skipWhitespace rest :=
  ⟨rest.takeWhile isJsonSpace, fun _ member => List.mem_takeWhile_imp member,
    List.takeWhile_append_dropWhile.symm⟩

theorem skipWhitespace_value {ν : Type} {toNumber : List Char → ν} {value : JsonTree ν}
    (spaces : IsBlank blank) (written : IsValue toNumber text value) (more : List Char) :
    skipWhitespace (blank ++ (text ++ more)) = text ++ more := by
  obtain ⟨c, others, rfl, begins, _⟩ := value_begins written
  apply skipWhitespace_blank spaces
  intro first same
  cases same
  exact begins

theorem consume_eq_some_iff : consume character rest = some after ↔ rest = character :: after := by
  cases rest with
  | nil => simp [consume]
  | cons c rest =>
    simp only [consume, Option.ite_none_right_eq_some, Option.some.injEq, List.cons.injEq]

theorem consume_eq_none_iff : consume character rest = none ↔ rest.head? ≠ some character := by
  cases rest with
  | nil => simp [consume]
  | cons c rest => simp [consume]

@[simp] theorem consume_same : consume character (character :: rest) = some rest :=
  consume_eq_some_iff.mpr rfl

theorem between_append (text rest : List Char) : between (text ++ rest) rest = text := by
  have length : (text ++ rest).length - rest.length = text.length := by simp
  rw [between, length, List.take_left]

end Characters

/-- No loop has come to the end of its fuel. -/
def Ends {α : Type} (outcome : Except Failure α) : Prop := outcome ≠ .error .exhausted

theorem Ends.ok {α : Type} (result : α) : Ends (.ok result) := by
  intro failed
  cases failed

theorem Ends.bind {α β : Type} {outcome : Except Failure α} {next : α → Except Failure β}
    (first : Ends outcome) (later : ∀ result, outcome = .ok result → Ends (next result)) :
    Ends (outcome >>= next) := by
  cases outcome with
  | error failure =>
    intro failed
    exact first (congrArg Except.error (Except.error.inj failed))
  | ok result => exact later result rfl

theorem invalidAt_ends {α : Type} (message : String) (index : Nat) :
    Ends (.error (StrictJsonParser.invalidAt message index) : Except Failure α) := by
  intro failed
  cases failed

namespace StrictJsonParser

variable {ν : Type} {parser : StrictJsonParser ν} {rest after text : List Char} {character : Char}

theorem expect_ends (parser : StrictJsonParser ν) (character : Char) (rest : List Char) :
    Ends (parser.expect character rest) := by
  unfold expect
  split
  · exact .ok _
  · exact invalidAt_ends _ _

theorem expect_ok_iff : parser.expect character rest = .ok after ↔ rest = character :: after := by
  rw [expect, ← consume_eq_some_iff]
  cases consume character rest with
  | none => simp
  | some more => simp

@[simp] theorem expect_same : parser.expect character (character :: rest) = .ok rest :=
  expect_ok_iff.mpr rfl

section Strings

variable {units more : List Nat} {characters : List Char} {unit : Nat}

theorem parseEscape_unit {c : Char} (known : escapeUnit c = some unit) (rest : List Char) :
    parser.parseEscape (c :: rest) = .ok (unit, rest) := by
  have noUnicode : c ≠ 'u' := by
    rintro rfl
    cases known
  rw [parseEscape, if_neg noUnicode, known]

theorem parseEscape_unicode {digits : List Char} (four : digits.length = 4)
    (hex : digits.all isHexDigit = true) (rest : List Char) :
    parser.parseEscape ('u' :: (digits ++ rest)) = .ok (hexValue digits, rest) := by
  have taken : (digits ++ rest).take 4 = digits := by rw [← four, List.take_left]
  have left : (digits ++ rest).drop 4 = rest := by rw [← four, List.drop_left]
  rw [parseEscape, if_pos rfl]
  simp only [taken, left]
  exact if_pos ⟨four, hex⟩

theorem parseCharacters_sound (result : List Nat) (rest : List Char)
    (read : parser.parseCharacters result rest = .ok (units, after)) :
    ∃ characters more, rest = characters ++ '"' :: after ∧ units = result ++ more ∧
      IsCharacters characters more := by
  fun_induction parser.parseCharacters result rest with
  | case1 result => cases read
  | case2 result rest =>
    cases read
    exact ⟨[], [], rfl, (List.append_nil _).symm, .nil⟩
  | case3 result rest unit left escape _ ih =>
    obtain ⟨characters, more, rfl, rfl, spelled⟩ := ih read
    rcases parser.parseEscape_ok escape with ⟨c, rfl, known⟩ | ⟨digits, rfl, four, hex, rfl⟩
    · exact ⟨'\\' :: c :: characters, unit :: more, rfl, by simp, .escaped known spelled⟩
    · exact ⟨'\\' :: 'u' :: (digits ++ characters), _, by simp, by simp,
        .unicode four hex spelled⟩
  | case4 => cases read
  | case5 => cases read
  | case6 result c rest noQuote noEscape visible ih =>
    obtain ⟨characters, more, rfl, rfl, spelled⟩ := ih read
    exact ⟨c :: characters, utf16 c ++ more, rfl, by simp,
      .unescaped (by omega) noQuote noEscape spelled⟩

theorem parseCharacters_complete (spelled : IsCharacters characters more) (result : List Nat) :
    parser.parseCharacters result (characters ++ '"' :: rest) = .ok (result ++ more, rest) := by
  induction spelled generalizing result with
  | nil =>
    rw [List.nil_append, parseCharacters, if_pos rfl, List.append_nil]
  | unescaped visible noQuote noEscape _ ih =>
    rw [List.cons_append, parseCharacters, if_neg noQuote, if_neg noEscape, if_neg (by omega), ih,
      List.append_assoc]
  | escaped known _ ih =>
    rw [List.cons_append, List.cons_append, parseCharacters, if_neg (by decide), if_pos rfl,
      parseEscape_unit known]
    simp only [ih, List.append_assoc, List.singleton_append]
  | unicode four hex _ ih =>
    rw [List.cons_append, List.cons_append, parseCharacters, if_neg (by decide), if_pos rfl,
      List.append_assoc, parseEscape_unicode four hex]
    simp only [ih, List.append_assoc, List.singleton_append]

theorem parseEscape_ends (parser : StrictJsonParser ν) (rest : List Char) : Ends (parser.parseEscape rest) := by
  cases rest with
  | nil => exact invalidAt_ends _ _
  | cons c rest =>
    rw [parseEscape]
    split
    · dsimp only
      split
      · exact .ok _
      · exact invalidAt_ends _ _
    · split
      · exact .ok _
      · exact invalidAt_ends _ _

theorem parseCharacters_ends (parser : StrictJsonParser ν) (result : List Nat) (rest : List Char) :
    Ends (parser.parseCharacters result rest) := by
  fun_induction parser.parseCharacters result rest with
  | case1 => exact invalidAt_ends _ _
  | case2 => exact .ok _
  | case3 _ _ _ _ _ _ ih => exact ih
  | case4 _ rest failure failed =>
    intro exhausted
    exact parser.parseEscape_ends rest (failed.trans (congrArg Except.error (Except.error.inj exhausted)))
  | case5 => exact invalidAt_ends _ _
  | case6 _ _ _ _ _ _ ih => exact ih

theorem parseString_ends (parser : StrictJsonParser ν) (rest : List Char) : Ends (parser.parseString rest) :=
  (parser.expect_ends '"' rest).bind fun after _ => parser.parseCharacters_ends [] after

theorem parseString_sound (read : parser.parseString rest = .ok (units, after)) :
    ∃ text, rest = text ++ after ∧ IsString text units := by
  obtain ⟨left, opened, read⟩ := Transaction.except_bind_ok.mp read
  obtain ⟨characters, more, rfl, rfl, spelled⟩ := parseCharacters_sound _ _ read
  rw [expect_ok_iff] at opened
  subst opened
  exact ⟨'"' :: (characters ++ ['"']), by simp, characters, rfl, spelled⟩

theorem parseString_complete (spelled : IsString text units) (rest : List Char) :
    parser.parseString (text ++ rest) = .ok (units, rest) := by
  obtain ⟨characters, rfl, spelled⟩ := spelled
  have opened : '"' :: (characters ++ ['"']) ++ rest = '"' :: (characters ++ '"' :: rest) := by simp
  rw [opened, parseString, expect_same]
  exact parseCharacters_complete spelled []

end Strings

section Numbers

variable {message : String} {digits : List Char}

theorem requireDigits_sound (read : parser.requireDigits message rest = .ok after) :
    ∃ digits, rest = digits ++ after ∧ AreDigits digits := by
  unfold requireDigits at read
  dsimp only at read
  split at read
  · cases read
  · rename_i shorter
    cases read
    refine ⟨rest.takeWhile Char.isDigit, List.takeWhile_append_dropWhile.symm, ?_, ?_⟩
    · intro noDigits
      have whole : rest.takeWhile Char.isDigit ++ rest.dropWhile Char.isDigit = rest :=
        List.takeWhile_append_dropWhile
      rw [noDigits, List.nil_append] at whole
      exact shorter (congrArg List.length whole)
    · exact fun _ member => List.mem_takeWhile_imp member

theorem requireDigits_complete (are : AreDigits digits) (ends : ∀ c ∈ rest.head?, c.isDigit = false) :
    parser.requireDigits message (digits ++ rest) = .ok rest := by
  have left : (digits ++ rest).dropWhile Char.isDigit = rest := by
    rw [List.dropWhile_append_of_pos are.2]
    cases rest with
    | nil => rfl
    | cons c rest => exact List.dropWhile_cons_of_neg (by simp [ends c rfl])
  have longer : rest.length ≠ (digits ++ rest).length := by
    have positive := List.length_pos_of_ne_nil are.1
    rw [List.length_append]
    omega
  unfold requireDigits
  rw [left]
  exact if_neg longer

theorem parseSign_sound (read : parser.parseSign rest = .ok after) :
    ∃ sign, rest = sign ++ after ∧ IsSign sign := by
  unfold parseSign at read
  split at read
  · rename_i left found
    rw [consume_eq_some_iff] at found
    split at read
    · cases read
    · cases read
      exact ⟨['-'], found, Or.inr rfl⟩
  · cases read
    exact ⟨[], rfl, Or.inl rfl⟩

theorem parseSign_complete {sign : List Char} (is : IsSign sign) {c : Char} {more : List Char}
    (noSign : c ≠ '-') : parser.parseSign (sign ++ c :: more) = .ok (c :: more) := by
  rcases is with rfl | rfl
  · have missing : consume '-' (c :: more) = none := consume_eq_none_iff.mpr (by simpa using noSign)
    rw [List.nil_append, parseSign, missing]
  · rw [List.singleton_append, parseSign, consume_same]
    exact if_neg (List.cons_ne_nil _ _)

theorem parseWhole_sound (read : parser.parseWhole rest = .ok after) :
    ∃ whole, rest = whole ++ after ∧ IsWhole whole := by
  unfold parseWhole at read
  split at read
  · rename_i left found
    rw [consume_eq_some_iff] at found
    split at read
    · cases read
    · cases read
      exact ⟨['0'], found, Or.inl rfl⟩
  · rename_i missing
    rw [consume_eq_none_iff] at missing
    obtain ⟨digits, rfl, are⟩ := requireDigits_sound read
    refine ⟨digits, rfl, Or.inr ⟨are, ?_⟩⟩
    rwa [List.head?_append_of_ne_nil _ are.1] at missing

theorem parseWhole_complete {whole : List Char} (is : IsWhole whole)
    (ends : ∀ c ∈ rest.head?, c.isDigit = false) : parser.parseWhole (whole ++ rest) = .ok rest := by
  rcases is with rfl | ⟨are, noZero⟩
  · have single : rest.head?.any Char.isDigit = false := by
      cases next : rest.head? with
      | none => rfl
      | some c => exact ends c next
    rw [List.singleton_append, parseWhole, consume_same]
    simp only [single, Bool.false_eq_true, if_false]
  · have missing : consume '0' (whole ++ rest) = none := by
      rw [consume_eq_none_iff, List.head?_append_of_ne_nil _ are.1]
      exact noZero
    rw [parseWhole, missing]
    exact requireDigits_complete are ends

theorem parseFraction_sound (read : parser.parseFraction rest = .ok after) :
    ∃ fraction, rest = fraction ++ after ∧ IsFraction fraction := by
  unfold parseFraction at read
  split at read
  · rename_i left found
    rw [consume_eq_some_iff] at found
    obtain ⟨digits, rfl, are⟩ := requireDigits_sound read
    exact ⟨'.' :: digits, found, Or.inr ⟨digits, rfl, are⟩⟩
  · cases read
    exact ⟨[], rfl, Or.inl rfl⟩

theorem parseFraction_complete {fraction : List Char} (is : IsFraction fraction)
    (ends : ∀ c ∈ rest.head?, c.isDigit = false ∧ c ≠ '.') :
    parser.parseFraction (fraction ++ rest) = .ok rest := by
  rcases is with rfl | ⟨digits, rfl, are⟩
  · have missing : consume '.' rest = none := by
      rw [consume_eq_none_iff]
      intro point
      exact (ends '.' point).2 rfl
    rw [List.nil_append, parseFraction, missing]
  · rw [List.cons_append, parseFraction, consume_same]
    exact requireDigits_complete are fun c next => (ends c next).1

theorem skipEither_split (first second : Char) (rest : List Char) :
    ∃ sign, rest = sign ++ skipEither first second rest ∧ (sign = [] ∨ sign = [first] ∨ sign = [second]) := by
  rw [skipEither]
  cases found : consume first rest with
  | some after => exact ⟨[first], consume_eq_some_iff.mp found, Or.inr (Or.inl rfl)⟩
  | none =>
    cases other : consume second rest with
    | some after => exact ⟨[second], consume_eq_some_iff.mp other, Or.inr (Or.inr rfl)⟩
    | none => exact ⟨[], rfl, Or.inl rfl⟩

theorem skipEither_digits {sign : List Char}
    (is : sign = [] ∨ sign = ['+'] ∨ sign = ['-']) (are : AreDigits digits) :
    skipEither '+' '-' (sign ++ (digits ++ rest)) = digits ++ rest := by
  cases digits with
  | nil => exact absurd rfl are.1
  | cons digit digits =>
    have isDigit := are.2 digit List.mem_cons_self
    have unsigned : digit ≠ '+' ∧ digit ≠ '-' := by
      constructor <;> rintro rfl <;> exact absurd isDigit (by decide)
    rcases is with rfl | rfl | rfl
    · simp [skipEither, consume, unsigned.1, unsigned.2]
    · simp [skipEither]
    · simp [skipEither, consume]

theorem parseExponent_sound (read : parser.parseExponent rest = .ok after) :
    ∃ exponent, rest = exponent ++ after ∧ IsExponent exponent := by
  unfold parseExponent at read
  split at read
  · rename_i marked
    cases rest with
    | nil => simp at marked
    | cons mark rest =>
      obtain ⟨sign, whole, signed⟩ := skipEither_split '+' '-' rest
      obtain ⟨digits, left, are⟩ := requireDigits_sound read
      rw [List.drop_one, List.tail_cons] at left
      rw [left] at whole
      refine ⟨mark :: (sign ++ digits), by rw [whole]; simp, Or.inr ⟨mark, sign, digits, rfl, ?_,
        signed, are⟩⟩
      simpa using marked
  · cases read
    exact ⟨[], rfl, Or.inl rfl⟩

theorem parseExponent_complete {exponent : List Char} (is : IsExponent exponent)
    (ends : NumeralEnds rest) : parser.parseExponent (exponent ++ rest) = .ok rest := by
  rcases is with rfl | ⟨mark, sign, digits, rfl, isMark, signed, are⟩
  · have missing : ¬(rest.head? = some 'e' ∨ rest.head? = some 'E') := by
      rintro (small | large)
      · exact (ends 'e' small).2.2.1 rfl
      · exact (ends 'E' large).2.2.2 rfl
    rw [List.nil_append, parseExponent, if_neg missing]
  · have marked : (mark :: (sign ++ digits) ++ rest).head? = some 'e' ∨
        (mark :: (sign ++ digits) ++ rest).head? = some 'E' := by simpa using isMark
    rw [parseExponent, if_pos marked, List.cons_append, List.drop_one, List.tail_cons,
      List.append_assoc, skipEither_digits signed are]
    exact requireDigits_complete are fun c next => (ends c next).1

theorem requireDigits_ends (parser : StrictJsonParser ν) (message : String) (rest : List Char) :
    Ends (parser.requireDigits message rest) := by
  unfold requireDigits
  dsimp only
  split
  · exact invalidAt_ends _ _
  · exact .ok _

theorem parseSign_ends (parser : StrictJsonParser ν) (rest : List Char) : Ends (parser.parseSign rest) := by
  unfold parseSign
  split
  · split
    · exact invalidAt_ends _ _
    · exact .ok _
  · exact .ok _

theorem parseWhole_ends (parser : StrictJsonParser ν) (rest : List Char) : Ends (parser.parseWhole rest) := by
  unfold parseWhole
  split
  · split
    · exact invalidAt_ends _ _
    · exact .ok _
  · exact parser.requireDigits_ends _ _

theorem parseFraction_ends (parser : StrictJsonParser ν) (rest : List Char) :
    Ends (parser.parseFraction rest) := by
  unfold parseFraction
  split
  · exact parser.requireDigits_ends _ _
  · exact .ok _

theorem parseExponent_ends (parser : StrictJsonParser ν) (rest : List Char) :
    Ends (parser.parseExponent rest) := by
  unfold parseExponent
  split
  · exact parser.requireDigits_ends _ _
  · exact .ok _

theorem parseNumber_ends (parser : StrictJsonParser ν) (rest : List Char) : Ends (parser.parseNumber rest) := by
  apply (parser.parseSign_ends rest).bind
  intro unsigned _
  apply (parser.parseWhole_ends unsigned).bind
  intro point _
  apply (parser.parseFraction_ends point).bind
  intro mark _
  apply (parser.parseExponent_ends mark).bind
  intro left _
  dsimp only
  split
  · exact .ok _
  · exact invalidAt_ends _ _

theorem parseNumber_sound {value : JsonTree ν} (read : parser.parseNumber rest = .ok (value, after)) :
    ∃ text, rest = text ++ after ∧ IsNumeral text ∧ value = .number (parser.numbers.number text) := by
  obtain ⟨unsigned, sign, read⟩ := Transaction.except_bind_ok.mp read
  obtain ⟨point, whole, read⟩ := Transaction.except_bind_ok.mp read
  obtain ⟨mark, fraction, read⟩ := Transaction.except_bind_ok.mp read
  obtain ⟨left, exponent, read⟩ := Transaction.except_bind_ok.mp read
  obtain ⟨signText, rfl, isSign⟩ := parseSign_sound sign
  obtain ⟨wholeText, rfl, isWhole⟩ := parseWhole_sound whole
  obtain ⟨fractionText, rfl, isFraction⟩ := parseFraction_sound fraction
  obtain ⟨exponentText, rfl, isExponent⟩ := parseExponent_sound exponent
  have joined : signText ++ (wholeText ++ (fractionText ++ (exponentText ++ left))) =
      signText ++ (wholeText ++ (fractionText ++ exponentText)) ++ left := by simp
  rw [joined, between_append] at read
  dsimp only at read
  split at read
  · cases read
    exact ⟨_, joined, ⟨_, _, _, _, rfl, isSign, isWhole, isFraction, isExponent⟩, rfl⟩
  · cases read

theorem parseNumber_complete (numeral : IsNumeral text) (ends : NumeralEnds rest) :
    parser.parseNumber (text ++ rest) =
      if parser.numbers.isFinite (parser.numbers.number text) then
        .ok (.number (parser.numbers.number text), rest)
      else .error (invalidAt "JSON number is outside finite range" (parser.index rest)) := by
  obtain ⟨sign, whole, fraction, exponent, shape, isSign, isWhole, isFraction, isExponent⟩ := numeral
  have joined : text ++ rest = sign ++ (whole ++ (fraction ++ (exponent ++ rest))) := by
    rw [shape]
    simp
  have ofExponent : ∀ c ∈ (exponent ++ rest).head?, c.isDigit = false ∧ c ≠ '.' := by
    rcases isExponent with rfl | ⟨mark, _, _, rfl, isMark, _⟩
    · exact fun c next => ⟨(ends c next).1, (ends c next).2.1⟩
    · intro c next
      cases next
      rcases isMark with rfl | rfl <;> decide
  have ofFraction : ∀ c ∈ (fraction ++ (exponent ++ rest)).head?, c.isDigit = false := by
    rcases isFraction with rfl | ⟨_, rfl, _⟩
    · exact fun c next => (ofExponent c next).1
    · intro c next
      cases next
      decide
  have unsigned : parser.parseSign (text ++ rest) = .ok (whole ++ (fraction ++ (exponent ++ rest))) := by
    rw [joined]
    rcases isWhole with rfl | ⟨are, _⟩
    · exact parseSign_complete isSign (by decide)
    · cases whole with
      | nil => exact absurd rfl are.1
      | cons digit whole =>
        have isDigit := are.2 digit List.mem_cons_self
        exact parseSign_complete isSign (by rintro rfl; exact absurd isDigit (by decide))
  unfold parseNumber
  simp only [unsigned, parseWhole_complete isWhole ofFraction,
    parseFraction_complete isFraction ofExponent, parseExponent_complete isExponent ends, bind,
    Except.bind, between_append]
  rfl

end Numbers

theorem parseLiteral_ends (parser : StrictJsonParser ν) (literal : List Char) (value : JsonTree ν)
    (rest : List Char) : Ends (parser.parseLiteral literal value rest) := by
  unfold parseLiteral
  split
  · exact .ok _
  · exact invalidAt_ends _ _

theorem parseLiteral_sound {literal : List Char} {value found : JsonTree ν}
    (read : parser.parseLiteral literal value rest = .ok (found, after)) :
    rest = literal ++ after ∧ found = value := by
  unfold parseLiteral at read
  split at read
  · rename_i begins
    cases read
    refine ⟨?_, rfl⟩
    have whole := List.take_append_drop literal.length rest
    rw [begins] at whole
    exact whole.symm
  · cases read

theorem parseLiteral_complete (literal : List Char) (value : JsonTree ν) (rest : List Char) :
    parser.parseLiteral literal value (literal ++ rest) = .ok (value, rest) := by
  rw [parseLiteral, if_pos List.take_left, List.drop_left]

end StrictJsonParser

end Lobu.StrictJson
