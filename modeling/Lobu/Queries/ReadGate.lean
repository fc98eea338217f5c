import Lobu.Foundation.SqlText

namespace Lobu.Queries

open Lobu.Foundation

/-! # The gate for queries that only read -/

/-- What follows the first place of a text, by `indexOf`. -/
def afterFirst (needle : List Char) : List Char → Option (List Char)
  | [] => none
  | c :: rest =>
    if needle.isPrefixOf (c :: rest) then some ((c :: rest).drop needle.length)
    else afterFirst needle rest

theorem afterFirst_length {needle text rest : List Char} (found : afterFirst needle text = some rest) :
    rest.length + needle.length ≤ text.length := by
  induction text with
  | nil => cases found
  | cons c text ih =>
    rw [afterFirst] at found
    split at found
    · rename_i here
      have fits := (List.isPrefixOf_iff_prefix.mp here).length_le
      cases found
      rw [List.length_drop]
      omega
    · have shorter := ih found
      rw [List.length_cons]
      omega

/-- One pass of the loop, which goes on with the rest, or ends with the result. -/
inductive Pass where
  | ends (result : List Char)
  | continues (rest : List Char)

def Pass.of : Option (List Char) → Pass
  | none => .ends []
  | some rest => .continues rest

def stripOnce (sql : List Char) : Pass :=
  match trimStart sql with
  | '-' :: '-' :: rest => .of (afterFirst ['\n'] ('-' :: '-' :: rest))
  | '/' :: '*' :: rest => .of (afterFirst ['*', '/'] ('/' :: '*' :: rest))
  | rest => .ends rest

theorem trimStart_length (text : List Char) : (trimStart text).length ≤ text.length :=
  (List.dropWhile_sublist _).length_le

theorem stripOnce_length {sql rest : List Char} (goes : stripOnce sql = .continues rest) :
    rest.length < (trimStart sql).length := by
  have found : ∀ needle, needle ≠ [] → Pass.of (afterFirst needle (trimStart sql)) = .continues rest →
        rest.length < (trimStart sql).length := by
    intro needle something passed
    cases after : afterFirst needle (trimStart sql) with
    | none =>
      rw [after] at passed
      cases passed
    | some found =>
      rw [after] at passed
      cases passed
      have shorter := afterFirst_length after
      have positive := List.length_pos_iff.mpr something
      omega
  unfold stripOnce at goes
  split at goes
  · rename_i begun
    rw [← begun] at goes
    exact found _ (List.cons_ne_nil _ _) goes
  · rename_i begun
    rw [← begun] at goes
    exact found _ (List.cons_ne_nil _ _) goes
  · cases goes

def stripLeadingComments (sql : List Char) : List Char :=
  match _ : stripOnce sql with
  | .ends result => result
  | .continues rest => stripLeadingComments rest
termination_by sql.length
decreasing_by exact (stripOnce_length ‹_›).trans_le (trimStart_length sql)

/-- `\w`. -/
def isWordChar (c : Char) : Bool := c.isAlphanum || c == '_'

/-- `^keyword\b`, with letters of either case. -/
def beginsWith (keyword text : List Char) : Bool :=
  (text.take keyword.length).map Char.toLower == keyword &&
    !(text.drop keyword.length).head?.any isWordChar

def isReadQuery (sql : List Char) : Bool :=
  beginsWith "select".toList (stripLeadingComments sql) ||
    beginsWith "with".toList (stripLeadingComments sql)

section Strip

variable {c : Char} {sql rest text : List Char}

theorem strip_eq (sql : List Char) : stripLeadingComments sql = match stripOnce sql with
    | .ends result => result
    | .continues rest => stripLeadingComments rest := by
  rw [stripLeadingComments]
  split <;> simp only [*]

theorem strip_congr (same : trimStart sql = trimStart text) :
    stripLeadingComments sql = stripLeadingComments text := by
  rw [strip_eq, strip_eq text, stripOnce, stripOnce, same]

theorem strip_blanks {blanks : List Char} (spaces : ∀ c ∈ blanks, isSpace c = true) :
    stripLeadingComments (blanks ++ rest) = stripLeadingComments rest := by
  refine strip_congr ?_
  rw [trimStart, List.dropWhile_append_of_pos spaces]
  rfl

theorem strip_line : stripLeadingComments ('-' :: '-' :: rest) =
    ((afterFirst ['\n'] rest).map stripLeadingComments).getD [] := by
  have skips : afterFirst ['\n'] ('-' :: '-' :: rest) = afterFirst ['\n'] rest := rfl
  have once : stripOnce ('-' :: '-' :: rest) = .of (afterFirst ['\n'] ('-' :: '-' :: rest)) := rfl
  rw [strip_eq, once, skips]
  cases afterFirst ['\n'] rest <;> rfl

theorem strip_block (clear : rest.head? ≠ some '/') :
    stripLeadingComments ('/' :: '*' :: rest) = ((afterFirst ['*', '/'] rest).map stripLeadingComments).getD [] := by
  have skips : afterFirst ['*', '/'] ('/' :: '*' :: rest) = afterFirst ['*', '/'] rest := by
    rw [afterFirst, if_neg (by simp), afterFirst, if_neg]
    intro closes
    obtain ⟨more, same⟩ := List.isPrefixOf_iff_prefix.mp closes
    cases rest with
    | nil => cases same
    | cons first others =>
      cases same
      exact clear rfl
  have once : stripOnce ('/' :: '*' :: rest) = .of (afterFirst ['*', '/'] ('/' :: '*' :: rest)) := rfl
  rw [strip_eq, once, skips]
  cases afterFirst ['*', '/'] rest <;> rfl

theorem strip_token (begins : beginsToken sql = true) (letter : ∀ c ∈ sql.head?, isSpace c = false) :
    stripLeadingComments sql = sql := by
  have started : trimStart sql = sql := by
    cases sql with
    | nil => rfl
    | cons c rest => exact List.dropWhile_cons_of_neg (by rw [letter c rfl]; decide)
  rw [strip_eq, stripOnce, started]
  split
  · rename_i same
    split at same
    · cases begins
    · cases begins
    · exact (Pass.ends.inj same).symm
  · rename_i same
    split at same
    · cases begins
    · cases begins
    · cases same

theorem strip_length_le (sql : List Char) : (stripLeadingComments sql).length ≤ (trimStart sql).length := by
  fun_induction stripLeadingComments sql with
  | case1 sql result ends =>
    have passes : ∀ found, Pass.of found = .ends result → result = [] := by
      intro found same
      cases found with
      | none => exact (Pass.ends.inj same).symm
      | some rest => cases same
    unfold stripOnce at ends
    split at ends
    · rw [passes _ ends]
      exact Nat.zero_le _
    · rw [passes _ ends]
      exact Nat.zero_le _
    · exact (Pass.ends.inj ends ▸ le_rfl)
  | case2 sql rest goes ih => exact ih.trans ((trimStart_length rest).trans (stripOnce_length goes).le)

theorem strip_space_ne (space : isSpace c = true) : stripLeadingComments (c :: rest) ≠ c :: rest := by
  intro same
  have shorter := strip_length_le (c :: rest)
  have dropped : trimStart (c :: rest) = trimStart rest := List.dropWhile_cons_of_pos space
  have fits := trimStart_length rest
  rw [same, dropped, List.length_cons] at shorter
  omega

end Strip

/-- A comment in brackets ends with the first closing bracket after its opening one. -/
def closesPlainly (rest : List Char) : Bool :=
  rest.head? != some '/' && afterFirst ['*', '/'] rest == afterBlock 0 rest

/-- Where a comment to the end of its line has ended, nothing follows in that line. -/
def endsPlainly (rest : List Char) : Bool :=
  rest.all isSqlSpace || (rest.takeWhile isSqlSpace).contains '\n'

def plainTrivia : List Char → Bool
  | '-' :: '-' :: rest => endsPlainly (afterLine rest) && plainTrivia (afterLine rest)
  | '/' :: '*' :: rest => closesPlainly rest &&
      match _ : afterBlock 0 rest with
      | none => true
      | some after => plainTrivia after
  | c :: rest => if isSqlSpace c then plainTrivia rest else true
  | [] => true
termination_by text => text.length
decreasing_by
  · have shorter := afterLine_length rest
    simp only [List.length_cons]
    omega
  · have shorter := afterBlock_length ‹_›
    simp only [List.length_cons]
    omega
  · simp only [List.length_cons]
    omega

section Plain

variable {c : Char} {sql rest text : List Char}

theorem isSpace_of_isSqlSpace (space : isSqlSpace c = true) : isSpace c = true := by
  simp only [isSqlSpace, Bool.or_eq_true, decide_eq_true_eq, beq_iff_eq] at space
  rcases space with control | rfl
  · simp [isSpace, control]
  · decide

theorem afterFirst_newline (before : '\n' ∉ text) (rest : List Char) :
    afterFirst ['\n'] (text ++ '\n' :: rest) = some rest := by
  induction text with
  | nil => rfl
  | cons c text ih =>
    rw [List.mem_cons, not_or] at before
    rw [List.cons_append, afterFirst, if_neg, ih before.2]
    simp [List.isPrefixOf, before.1]

theorem afterFirst_newline_none (never : '\n' ∉ text) : afterFirst ['\n'] text = none := by
  induction text with
  | nil => rfl
  | cons c text ih =>
    rw [List.mem_cons, not_or] at never
    rw [afterFirst, if_neg, ih never.2]
    simp [List.isPrefixOf, never.1]

theorem afterFirst_afterLine (rest : List Char) : afterFirst ['\n'] rest = afterFirst ['\n'] (afterLine rest) := by
  induction rest with
  | nil => rfl
  | cons c rest ih =>
    rw [afterLine, List.dropWhile_cons]
    split
    · rename_i inLine
      simp only [Bool.not_eq_true', Bool.or_eq_false_iff, beq_eq_false_iff_ne] at inLine
      rw [afterFirst, if_neg, ih, afterLine]
      simp [List.isPrefixOf, Ne.symm inLine.1]
    · rfl

theorem strip_line_plain (plain : endsPlainly (afterLine rest) = true) :
    stripLeadingComments ('-' :: '-' :: rest) = stripLeadingComments (afterLine rest) := by
  rw [strip_line, afterFirst_afterLine]
  generalize afterLine rest = after at *
  by_cases newline : '\n' ∈ after.takeWhile isSqlSpace
  · -- the line ends after nothing but white space
    obtain ⟨blanks, more, found, before⟩ := List.eq_append_cons_of_mem newline
    have split : after = blanks ++ '\n' :: (more ++ after.dropWhile isSqlSpace) := by
      rw [← List.cons_append, ← List.append_assoc, ← found, List.takeWhile_append_dropWhile]
    have spaces : ∀ c ∈ blanks ++ ['\n'], isSpace c = true := by
      intro c member
      rcases List.mem_append.mp member with inLine | newline
      · refine isSpace_of_isSqlSpace (List.mem_takeWhile_imp (l := after) ?_)
        rw [found]
        exact List.mem_append_left _ inLine
      · rw [List.mem_singleton.mp newline]
        decide
    rw [split, afterFirst_newline before, Option.map_some, Option.getD_some, ← List.singleton_append,
      ← List.append_assoc, strip_blanks spaces]
  · -- no line comes after it
    have blank : ∀ c ∈ after, isSqlSpace c = true := by
      rw [endsPlainly, Bool.or_eq_true, List.contains_iff_mem, or_iff_left newline, List.all_eq_true] at plain
      exact plain
    have never : '\n' ∉ after := by
      intro member
      apply newline
      rwa [List.takeWhile_eq_self_iff.mpr blank]
    have nothing : stripLeadingComments after = [] := by
      rw [← List.append_nil after, strip_blanks fun c member => isSpace_of_isSqlSpace (blank c member)]
      exact strip_token rfl (by simp)
    rw [afterFirst_newline_none never, nothing]
    rfl

theorem strip_plain (plain : plainTrivia sql = true) :
    stripLeadingComments sql = ((skipTrivia sql).map stripLeadingComments).getD [] := by
  fun_induction plainTrivia sql with
  | case1 rest ih =>
    rw [Bool.and_eq_true] at plain
    rw [strip_line_plain plain.1, skipTrivia_line, ih plain.2]
  | case2 rest ih =>
    rw [Bool.and_eq_true, closesPlainly, Bool.and_eq_true, bne_iff_ne, beq_iff_eq] at plain
    obtain ⟨⟨clear, same⟩, goes⟩ := plain
    rw [strip_block clear, same, skipTrivia_block]
    cases closed : afterBlock 0 rest with
    | none => rfl
    | some after =>
      rw [Option.map_some, Option.getD_some, Option.bind_some]
      refine ih after closed ?_
      split at goes
      · rename_i unclosed
        rw [unclosed] at closed
        cases closed
      · rename_i other found
        rw [found] at closed
        cases closed
        exact goes
  | case3 c rest notLine notBlock space ih =>
    rw [skipTrivia_space space, ← ih plain]
    exact strip_congr (List.dropWhile_cons_of_pos (isSpace_of_isSqlSpace space))
  | case4 c rest notLine notBlock letter =>
    rw [skipTrivia_token (beginsToken_cons notLine notBlock letter)]
    rfl
  | case5 =>
    rw [skipTrivia_nil]
    rfl

end Plain

/-- The keywords that a query may begin with. -/
def readKeywords : List (List Char) := ["select".toList, "with".toList]

/-- The letters of a keyword, followed by what goes on with a name but with no word. -/
def runsOn (keyword text : List Char) : Bool :=
  (text.take keyword.length).map Char.toLower == keyword &&
    (text.drop keyword.length).head?.any fun c => isNamePart c && !isWordChar c

/-- What follows the trivia is no white space of another kind and no longer name. -/
def plainStart (rest : List Char) : Bool :=
  !rest.head?.any isSpace && readKeywords.all fun keyword => !runsOn keyword rest

/-- The gate lets only queries through whose first token is one of the keywords, and what is
stripped is the trivia; behind a comment that never ends there is nothing. -/
def GateHolds (sql : List Char) : Prop :=
  (isReadQuery sql = true → ∃ rest, skipTrivia sql = some rest ∧ firstWord rest ∈ readKeywords) ∧
    stripLeadingComments sql = (skipTrivia sql).getD []

section Token

variable {c : Char} {sql rest text keyword : List Char}

theorem isNamePart_iff (c : Char) : isNamePart c = true ↔
    48 ≤ c.toNat ∧ c.toNat ≤ 57 ∨ 65 ≤ c.toNat ∧ c.toNat ≤ 90 ∨ 97 ≤ c.toNat ∧ c.toNat ≤ 122 ∨
      c.toNat = 95 ∨ c.toNat = 36 ∨ 128 ≤ c.toNat := by
  have code : ∀ other : Char, c = other ↔ c.toNat = other.toNat := fun other =>
    ⟨congrArg Char.toNat, fun same => Char.toNat_inj.mp same⟩
  have shape : isNamePart c = (((((decide (c.val ≥ 65 ∧ c.val ≤ 90)) ||
      (decide (c.val ≥ 97) && decide (c.val ≤ 122))) || c.isDigit) || c == '_') || c == '$' ||
        decide (128 ≤ c.toNat)) := rfl
  rw [shape]
  simp only [Bool.or_eq_true, isDigit_iff, beq_iff_eq, decide_eq_true_eq, code, Bool.and_eq_true,
    ge_iff_le, UInt32.le_iff_toNat_le]
  change ((((65 ≤ c.toNat ∧ c.toNat ≤ 90 ∨ 97 ≤ c.toNat ∧ c.toNat ≤ 122) ∨
    48 ≤ c.toNat ∧ c.toNat ≤ 57) ∨ c.toNat = 95) ∨ c.toNat = 36) ∨ 128 ≤ c.toNat ↔ _
  omega

theorem isNamePart_toLower (c : Char) : isNamePart c.toLower = isNamePart c := by
  rw [Bool.eq_iff_iff, isNamePart_iff, isNamePart_iff, toNat_toLower]
  split <;> omega

theorem firstWord_eq_iff (letters : ∀ c ∈ keyword, isNamePart c = true) :
    firstWord text = keyword ↔ (text.take keyword.length).map Char.toLower = keyword ∧
      (text.drop keyword.length).head?.any isNamePart = false := by
  induction keyword generalizing text with
  | nil =>
    cases text with
    | nil => simp [firstWord]
    | cons c text => cases part : isNamePart c <;> simp [firstWord, part]
  | cons letter keyword ih =>
    rw [List.forall_mem_cons] at letters
    cases text with
    | nil => simp [firstWord]
    | cons c text =>
      have following : firstWord text = keyword ↔ _ := ih letters.2
      by_cases part : isNamePart c = true
      · simp only [firstWord, List.takeWhile_cons_of_pos part] at following ⊢
        simp [following, and_assoc]
      · have other : c.toLower ≠ letter := by
          rintro rfl
          rw [isNamePart_toLower] at letters
          exact part letters.1
        simp [firstWord, part, other]

theorem beginsWith_iff : beginsWith keyword text = true ↔ (text.take keyword.length).map Char.toLower = keyword ∧
      (text.drop keyword.length).head?.any isWordChar = false := by
  rw [beginsWith, Bool.and_eq_true, beq_iff_eq, Bool.not_eq_true']

theorem beginsWith_keyword (letters : ∀ c ∈ keyword, isNamePart c = true)
    (begins : beginsWith keyword text = true) : firstWord text = keyword ↔ runsOn keyword text = false := by
  obtain ⟨same, noWord⟩ := beginsWith_iff.mp begins
  rw [firstWord_eq_iff letters, runsOn, same]
  simp only [beq_self_eq_true, Bool.true_and, true_and]
  cases next : (text.drop keyword.length).head? with
  | none => simp
  | some c =>
    rw [next, Option.any_some] at noWord
    simp [noWord]

theorem runsOn_beginsWith (runs : runsOn keyword text = true) : beginsWith keyword text = true := by
  rw [runsOn, Bool.and_eq_true, beq_iff_eq] at runs
  refine beginsWith_iff.mpr ⟨runs.1, ?_⟩
  obtain ⟨c, next, part⟩ := (Option.any_eq_true ..).mp runs.2
  rw [Bool.and_eq_true, Bool.not_eq_true'] at part
  rw [next, Option.any_some, part.2]

theorem prefix_of_letters {lower : List Char}
    (same : (text.take keyword.length).map Char.toLower = lower) : lower <+: text.map Char.toLower := by
  rw [← same, List.map_take]
  exact List.take_prefix _ _

theorem isNamePart_of_keyword (member : keyword ∈ readKeywords) : ∀ c ∈ keyword, isNamePart c = true := by
  have all : (readKeywords.all fun keyword => keyword.all isNamePart) = true := by decide
  intro c inside
  exact List.all_eq_true.mp (List.all_eq_true.mp all keyword member) c inside

theorem keywords_apart {other : List Char} (member : keyword ∈ readKeywords)
    (otherMember : other ∈ readKeywords) (begins : beginsWith keyword text = true)
    (word : firstWord text = other) : keyword = other := by
  have first := prefix_of_letters (beginsWith_iff.mp begins).1
  have second := prefix_of_letters ((firstWord_eq_iff (isNamePart_of_keyword otherMember)).mp word).1
  have apart : ∀ keyword ∈ readKeywords, ∀ other ∈ readKeywords, keyword <+: other → keyword = other := by decide
  rcases List.prefix_or_prefix_of_prefix first second with within | within
  · exact apart keyword member other otherMember within
  · exact (apart other otherMember keyword member within).symm

theorem isReadQuery_iff : isReadQuery sql = true ↔
    ∃ keyword ∈ readKeywords, beginsWith keyword (stripLeadingComments sql) = true := by
  simp [isReadQuery, readKeywords]

/-- Where the leading comments end plainly, the gate holds just where no name and no space of
another kind follows them. -/
theorem gate_holds_iff (plain : plainTrivia sql = true) :
    GateHolds sql ↔ ∀ rest, skipTrivia sql = some rest → plainStart rest = true := by
  have stripped := strip_plain plain
  rw [GateHolds, isReadQuery_iff]
  cases skipped : skipTrivia sql with
  | none =>
    rw [skipped, Option.map_none, Option.getD_none] at stripped
    rw [stripped]
    simp [readKeywords, beginsWith]
  | some rest =>
    rw [skipped, Option.map_some, Option.getD_some] at stripped
    rw [stripped, Option.getD_some]
    simp only [Option.some.injEq, forall_eq', exists_eq_left', plainStart, Bool.and_eq_true,
      Bool.not_eq_true', List.all_eq_true]
    cases rest with
    | nil =>
      rw [strip_token rfl (by simp)]
      simp [readKeywords, beginsWith, runsOn]
    | cons c rest =>
      rw [List.head?_cons, Option.any_some]
      cases space : isSpace c with
      | true =>
        have other : stripLeadingComments (c :: rest) ≠ c :: rest := strip_space_ne space
        simp [other]
      | false =>
        rw [strip_token (beginsToken_of_skipTrivia skipped) (by simpa using space)]
        simp only [and_true, true_and]
        constructor
        · intro gate keyword member
          cases runs : runsOn keyword (c :: rest) with
          | false => rfl
          | true =>
            have begins := runsOn_beginsWith runs
            have known := gate ⟨keyword, member, begins⟩
            have same := keywords_apart member known begins rfl
            rw [(beginsWith_keyword (isNamePart_of_keyword member) begins).mp same.symm] at runs
            cases runs
        · rintro none ⟨keyword, member, begins⟩
          rw [(beginsWith_keyword (isNamePart_of_keyword member) begins).mpr (none keyword member)]
          exact member

end Token

/-- A comment within a comment: the gate sees a `SELECT` where the database sees a `DELETE`. -/
theorem nested_comment_passes : ¬ ∀ sql, GateHolds sql := by
  intro always
  have passes : isReadQuery "/* /* */ SELECT 1 */ DELETE FROM events".toList = true := by
    decide +kernel
  obtain ⟨rest, skipped, word⟩ := (always "/* /* */ SELECT 1 */ DELETE FROM events".toList).1 passes
  have deletes : skipTrivia "/* /* */ SELECT 1 */ DELETE FROM events".toList =
      some "DELETE FROM events".toList := by decide +kernel
  rw [deletes] at skipped
  cases skipped
  revert word
  decide +kernel

/-- Comments of both kinds, one behind a carriage return. -/
theorem gate_holds_comments : GateHolds "-- note\r\n/* a */ /* b */\tWITH x AS (SELECT 1)".toList :=
  (gate_holds_iff (by decide +kernel)).mpr fun rest skipped => by
    have known : skipTrivia "-- note\r\n/* a */ /* b */\tWITH x AS (SELECT 1)".toList =
        some "WITH x AS (SELECT 1)".toList := by decide +kernel
    rw [known] at skipped
    cases skipped
    decide +kernel

end Lobu.Queries
