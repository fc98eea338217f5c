import Lobu.Worker.ShellFragment
import Lobu.Worker.ToolPolicy

namespace Lobu.Worker

open Lobu.Foundation

/-! # What the command policy checks

The splitter keeps two flags and no stack.  Where that is enough, every simple
command has a segment that begins with it.
-/

def idle (inDouble : Bool) (segments : List (List Char)) (current : List Char) : SplitState where
  segments
  current
  inSingle := false
  inDouble
  skip := false

def pushed (segments : List (List Char)) (current : List Char) : List (List Char) :=
  (idle false segments current).push.segments

theorem pushed_eq (segments : List (List Char)) (current : List Char) :
    pushed segments current = segments ++ pushed [] current := by
  by_cases blank : trim current = [] <;> simp [pushed, idle, SplitState.push, blank]

theorem pushed_blank {current : List Char} (blank : ∀ c ∈ current, isSpace c = true) : pushed [] current = [] := by
  simp [pushed, idle, SplitState.push, trim_blanks blank]

section Pieces

variable {inDouble : Bool} {segments : List (List Char)} {current rest : List Char} {c : Char}

theorem splitFrom_plain (plain : Shell.isSpecial c = false) (dollar : ¬ (c = '$' ∧ rest.head? = some '(')) :
    splitFrom (c :: rest) (idle false segments current) = splitFrom rest (idle false segments (current ++ [c])) := by
  simp only [Shell.isSpecial, List.contains_eq_mem, List.mem_cons, List.not_mem_nil, or_false,
    decide_eq_false_iff_not, not_or] at plain
  simp [splitFrom, splitChar, idle, SplitState.consume, plain, dollar]

theorem splitFrom_quoted (quote : c ≠ '"') (backtick : c ≠ '`') (dollar : ¬ (c = '$' ∧ rest.head? = some '(')) :
    splitFrom (c :: rest) (idle true segments current) = splitFrom rest (idle true segments (current ++ [c])) := by
  simp [splitFrom, splitChar, idle, SplitState.consume, quote, backtick, dollar]

theorem splitFrom_quote :
    splitFrom ('"' :: rest) (idle inDouble segments current) =
      splitFrom rest (idle (!inDouble) segments current) := by
  cases inDouble <;> simp [splitFrom, splitChar, idle]

theorem splitFrom_single (segments : List (List Char)) (current rest : List Char)
    {quotation : List Char} (inner : '\'' ∉ quotation) :
    splitFrom ('\'' :: (quotation ++ '\'' :: rest)) (idle false segments current) =
      splitFrom rest (idle false segments (current ++ quotation)) := by
  have opened : ∀ text : List Char, splitFrom (quotation ++ '\'' :: rest)
        { segments, current := text, inSingle := true, inDouble := false, skip := false } =
          splitFrom rest (idle false segments (text ++ quotation)) := by
    induction quotation with
    | nil =>
      intro text
      simp [splitFrom, splitChar, idle]
    | cons c quotation ih =>
      intro text
      simp only [List.mem_cons, not_or] at inner
      have other : c ≠ '\'' := fun same => inner.1 same.symm
      have next := ih inner.2 (text ++ [c])
      rw [List.append_assoc, List.singleton_append] at next
      rw [← next]
      simp [splitFrom, splitChar, SplitState.consume, other]
  rw [← opened current]
  simp [splitFrom, splitChar, idle]

theorem splitFrom_opening (segments : List (List Char)) (current rest : List Char) (kind : Substitution)
    (executed : inDouble = true → kind = .dollar ∨ kind = .backtick) :
    splitFrom (kind.opening ++ rest) (idle inDouble segments current) =
      splitFrom rest (idle inDouble (pushed segments current) []) := by
  cases inDouble with
  | false =>
    cases kind <;>
      simp [Substitution.opening, splitFrom, splitChar, idle, SplitState.skipping] <;>
      rfl
  | true =>
    rcases executed rfl with rfl | rfl <;>
      simp [Substitution.opening, splitFrom, splitChar, idle, SplitState.skipping] <;>
      rfl

theorem splitFrom_closing (segments : List (List Char)) (current rest : List Char)
    (kind : Substitution) (seen : inDouble = true → kind = .backtick) :
    splitFrom (kind.closing :: rest) (idle inDouble segments current) =
      splitFrom rest (idle inDouble (pushed segments current) []) := by
  cases inDouble with
  | false =>
    cases kind <;> simp [Substitution.closing, splitFrom, splitChar, idle] <;> rfl
  | true =>
    rw [seen rfl]
    simp [Substitution.closing, splitFrom, splitChar, idle]
    rfl

theorem splitFrom_operator (segments : List (List Char)) (current rest : List Char) (sign : Operator)
    (background : sign = .background → rest.head? ≠ some '&') (pipe : sign = .pipe → rest.head? ≠ some '|') :
    splitFrom (sign.text ++ rest) (idle false segments current) =
      splitFrom rest (idle false (pushed segments current) []) := by
  cases sign with
  | background =>
    have next := background rfl
    simp [Operator.text, splitFrom, splitChar, idle, next]
    rfl
  | pipe =>
    have next := pipe rfl
    simp [Operator.text, splitFrom, splitChar, idle, next]
    rfl
  | semicolon | newline | both | either =>
    simp [Operator.text, splitFrom, splitChar, idle, SplitState.skipping]
    rfl

end Pieces

section Later

variable {state : SplitState} {ch : Char} {next : Option Char} {input segment : List Char}

theorem splitChar_cases (ch : Char) (next : Option Char) (state : SplitState) :
    ((splitChar ch next state).segments = state.segments ∧
      ∃ more, (splitChar ch next state).current = state.current ++ more) ∨
      (splitChar ch next state).segments = state.push.segments := by
  generalize turned : splitChar ch next state = after
  have kept : after.segments = state.segments → after.current = state.current →
      after.segments = state.segments ∧ ∃ more, after.current = state.current ++ more := by
    intro segments current
    exact ⟨segments, [], by simpa using current⟩
  simp only [splitChar] at turned
  repeat' split at turned
  all_goals
    subst turned
    first
      | exact .inr rfl
      | exact .inl (kept rfl rfl)
      | exact .inl ⟨rfl, [ch], rfl⟩

theorem mem_push (member : segment ∈ state.segments) : segment ∈ state.push.segments := by
  simp only [SplitState.push]
  split
  · exact member
  · exact List.mem_append_left _ member

theorem trim_mem_push (begun : trim state.current ≠ []) : trim state.current ∈ state.push.segments := by
  simp [SplitState.push, begun]

theorem segment_kept (member : segment ∈ state.segments) : segment ∈ (splitFrom input state).push.segments := by
  induction input generalizing state with
  | nil => exact mem_push member
  | cons ch input ih =>
    apply ih
    rcases splitChar_cases ch input.head? state with ⟨same, _⟩ | ended
    · rw [same]
      exact member
    · rw [ended]
      exact mem_push member

theorem trim_mem_pushed {current : List Char} (begun : trim current ≠ []) : trim current ∈ pushed [] current := by
  simp [pushed, idle, SplitState.push, begun]

theorem current_kept (input : List Char) (begun : trimStart state.current ≠ []) :
    ∃ more, trim (state.current ++ more) ∈ (splitFrom input state).push.segments := by
  induction input generalizing state with
  | nil =>
    refine ⟨[], ?_⟩
    rw [List.append_nil]
    exact trim_mem_push (trimEnd_ne_nil begun)
  | cons ch input ih =>
    rcases splitChar_cases ch input.head? state with ⟨_, appended, current⟩ | ended
    · have still : trimStart (splitChar ch input.head? state).current ≠ [] := by
        rw [current, trimStart_append begun]
        exact List.append_ne_nil_of_left_ne_nil begun _
      obtain ⟨more, member⟩ := ih still
      refine ⟨appended ++ more, ?_⟩
      rw [← List.append_assoc, ← current]
      exact member
    · refine ⟨[], ?_⟩
      rw [List.append_nil]
      have kept : trim state.current ∈ (splitChar ch input.head? state).segments := by
        rw [ended]
        exact trim_mem_push (trimEnd_ne_nil begun)
      rw [splitFrom]
      exact segment_kept kept

end Later

/-- A segment is the literal beginning of the command, blanks at its end apart.  Unless
`exact`, a closing parenthesis that was not seen may follow. -/
def Covered (exact : Bool) (segments : List (List Char)) (text : List Shell.Glyph) : Prop :=
  Shell.lead text = [] ∨ ∃ blanks rest, (∀ c ∈ blanks, isSpace c = true) ∧
    (∀ c ∈ rest.head?, c = ')') ∧ (exact = true → blanks = [] ∧ rest = []) ∧
      trimEnd (Shell.lead text) ++ (blanks ++ rest) ∈ segments

section Leads

open Shell (Glyph chars lead)

variable {exact : Bool} {segments : List (List Char)} {text more : List Glyph}
variable {state : SplitState} {input current : List Char}

theorem lead_append (substituted : Glyph.hole ∈ text) : lead (text ++ more) = lead text := by
  have stops : (text ++ more).takeWhile Glyph.notHole = text.takeWhile Glyph.notHole := by
    rw [List.takeWhile_append, if_neg]
    intro all
    have whole := List.takeWhile_eq_self_iff.mp (List.IsPrefix.eq_of_length
      (List.takeWhile_prefix _) all) Glyph.hole substituted
    contradiction
  simp [lead, substituted, stops]

theorem lead_substitute (literal : Glyph.hole ∉ text) : lead (text ++ [.hole]) = trimStart (chars text) := by
  have stops : (text ++ [Glyph.hole]).takeWhile Glyph.notHole = text := by
    rw [List.takeWhile_append_of_pos]
    · simp [Glyph.notHole]
    · intro glyph member
      simp only [Glyph.notHole, bne_iff_ne, ne_eq]
      rintro rfl
      exact literal member
  simp [lead, stops]

theorem lead_literal (literal : Glyph.hole ∉ text) :
    ∃ blanks, (∀ c ∈ blanks, isSpace c = true) ∧ lead text = trimStart (chars (text.rdropWhile Glyph.isBlank)) ∧
        chars text = chars (text.rdropWhile Glyph.isBlank) ++ blanks := by
  refine ⟨chars (text.rtakeWhile Glyph.isBlank), ?_, by simp [lead, literal], ?_⟩
  · intro c member
    obtain ⟨glyph, dropped, same⟩ := List.mem_filterMap.mp member
    have blank := List.mem_rtakeWhile_imp dropped
    cases glyph with
    | char other quoted =>
      cases quoted with
      | true => contradiction
      | false =>
        cases same
        simp only [Glyph.isBlank, Shell.isBlank, Bool.or_eq_true, beq_iff_eq] at blank
        rcases blank with rfl | rfl <;> decide
    | mark | hole => contradiction
  · rw [chars, chars, chars, ← List.filterMap_append, List.rdropWhile_append_rtakeWhile]

theorem trim_chars (literal : Glyph.hole ∉ text) : trim (chars text) = trimEnd (lead text) := by
  obtain ⟨blanks, spaces, beginning, same⟩ := lead_literal literal
  rw [same, trim_append_blanks _ spaces, beginning, trim]

theorem trimStart_chars (literal : Glyph.hole ∉ text) (begun : lead text ≠ []) : trimStart (chars text) ≠ [] := by
  obtain ⟨blanks, spaces, beginning, same⟩ := lead_literal literal
  rw [beginning] at begun
  rw [same, trimStart_append begun]
  exact List.append_ne_nil_of_left_ne_nil begun _

theorem Covered.append (covered : Covered exact segments text) (substituted : Glyph.hole ∈ text) :
    Covered exact segments (text ++ more) := by
  rw [Covered, lead_append substituted]
  exact covered

theorem covered_of_mem (same : trimEnd (lead text) ∈ segments) : Covered exact segments text := by
  refine .inr ⟨[], [], ?_, ?_, fun _ => ⟨rfl, rfl⟩, ?_⟩
  · simp
  · simp
  · simpa using same

theorem covered_of_push (literal : Glyph.hole ∉ text)
    (kept : ∀ segment ∈ pushed [] (chars text), segment ∈ segments) : Covered exact segments text := by
  by_cases begun : lead text = []
  · exact .inl begun
  · have nonblank : trim (chars text) ≠ [] := trimEnd_ne_nil (trimStart_chars literal begun)
    apply covered_of_mem
    rw [← trim_chars literal]
    exact kept _ (trim_mem_pushed nonblank)

theorem covered_of_push_substitute (literal : Glyph.hole ∉ text)
    (kept : ∀ segment ∈ pushed [] (chars text), segment ∈ segments) : Covered exact segments (text ++ [.hole]) := by
  by_cases begun : trimStart (chars text) = []
  · exact .inl ((lead_substitute literal).trans begun)
  · apply covered_of_mem
    rw [lead_substitute literal]
    exact kept _ (trim_mem_pushed (trimEnd_ne_nil begun))

theorem covered_of_current (input : List Char) (state : SplitState) (literal : Glyph.hole ∉ text)
    (later : state.current = chars text ++ [')'])
    (ends : segments = (splitFrom input state).push.segments) : Covered false segments text := by
  by_cases begun : lead text = []
  · exact .inl begun
  · have started := trimStart_chars literal begun
    have still : trimStart state.current ≠ [] := by
      rw [later, trimStart_append started]
      exact List.append_ne_nil_of_left_ne_nil started _
    obtain ⟨more, member⟩ := current_kept input still
    obtain ⟨blanks, spaces, same⟩ := trimEnd_append_dropped (trimStart (chars text))
    obtain ⟨rest, ended⟩ := trimEnd_cons more (show isSpace ')' = false by decide)
    refine .inr ⟨blanks, ')' :: rest, spaces, by simp, by simp, ?_⟩
    have read : trim (state.current ++ more) = trimStart (chars text) ++ ')' :: rest := by
      rw [trim, later, List.append_assoc, trimStart_append started, List.singleton_append,
        trimEnd_append (by simp [ended]), ended]
    have whole : trimEnd (lead text) ++ (blanks ++ ')' :: rest) = trimStart (chars text) ++ ')' :: rest := by
      rw [← trim_chars literal, trim, ← List.append_assoc, ← same]
    rw [whole, ← read, ends]
    exact member

end Leads

/-- No escapes and no groups, and inside double quotes only plain substitutions, whose
closing parenthesis an allowlist would not see. -/
def Shell.scannable (allowlist : Bool) : Bool → Shell → Bool
  | _, .done => true
  | inDouble, .plain _ rest => rest.scannable allowlist inDouble
  | _, .escaped _ _ => false
  | inDouble, .single _ rest => !inDouble && rest.scannable allowlist inDouble
  | inDouble, .double body rest =>
    !inDouble && body.scannable allowlist true && rest.scannable allowlist inDouble
  | inDouble, .substitute kind body rest =>
    (!inDouble || kind == .backtick || kind == .dollar && !allowlist) &&
      body.scannable allowlist inDouble && rest.scannable allowlist inDouble
  | _, .group _ _ => false
  | inDouble, .operator _ rest => !inDouble && rest.scannable allowlist inDouble

section Simulation

open Shell (Glyph Place chars lead walk)

variable {exact inDouble : Bool} {final segments : List (List Char)} {text : List Glyph}
variable {current tail rest : List Char} {place : Place} {c : Char}

/-- What a piece is followed by: a closing bracket or quote, or nothing. -/
def Closes (tail : List Char) : Prop :=
  ∀ c ∈ tail.head?, c = ')' ∨ c = '`' ∨ c = '"'

/-- The splitter has read the text of a command: all of it, or beyond the first
substitution. -/
structure Tracked (exact : Bool) (final : List (List Char)) (current : List Char)
    (text : List Glyph) : Prop where
  literal : Glyph.hole ∉ text → current = chars text
  begun : Glyph.hole ∈ text → Covered exact final text

theorem Tracked.extend (tracked : Tracked exact final current text) (more : List Glyph)
    (literal : Glyph.hole ∉ more) : Tracked exact final (current ++ chars more) (text ++ more) where
  literal without := by
    rw [tracked.literal fun member => without (List.mem_append_left _ member)]
    simp [chars]
  begun within := by
    rcases List.mem_append.mp within with member | member
    · exact (tracked.begun member).append member
    · exact absurd member literal

theorem tracked_nil : Tracked exact final [] [] where
  literal _ := rfl
  begun member := by contradiction

theorem Tracked.covered (tracked : Tracked exact final current text)
    (kept : ∀ segment ∈ pushed segments current, segment ∈ final) : Covered exact final text := by
  by_cases substituted : Glyph.hole ∈ text
  · exact tracked.begun substituted
  · apply covered_of_push substituted
    rw [← tracked.literal substituted]
    intro segment member
    apply kept
    rw [pushed_eq]
    exact List.mem_append_right _ member

theorem Tracked.substitute (tracked : Tracked exact final current text)
    (kept : ∀ segment ∈ pushed segments current, segment ∈ final) (moved : List Char) :
    Tracked exact final moved (text ++ [.hole]) where
  literal without := absurd (List.mem_append_right _ List.mem_cons_self) without
  begun _ := by
    by_cases substituted : Glyph.hole ∈ text
    · exact (tracked.begun substituted).append substituted
    · apply covered_of_push_substitute substituted
      rw [← tracked.literal substituted]
      intro segment member
      apply kept
      rw [pushed_eq]
      exact List.mem_append_right _ member

theorem head_append_ne {front : List Char} (closes : Closes tail)
    (other : front.head? ≠ some c) (opens : ¬ (c = ')' ∨ c = '`' ∨ c = '"')) : (front ++ tail).head? ≠ some c := by
  cases front with
  | nil =>
    intro same
    exact opens (closes c same)
  | cons first others => exact other

theorem splitFrom_admitted (segments : List (List Char)) (current : List Char) (admitted : place.admits c = true)
    (quoted : place = .quoted → inDouble = true) (dollar : ¬ (c = '$' ∧ rest.head? = some '(')) :
    splitFrom (c :: rest) (idle inDouble segments current) =
      splitFrom rest (idle inDouble segments (current ++ [c])) := by
  have plain : place ≠ .quoted → Shell.isSpecial c = false := by
    intro unquoted
    cases place with
    | quoted => contradiction
    | closed =>
      simp only [Place.admits, Shell.isBlank, Bool.or_eq_true, beq_iff_eq] at admitted
      rcases admitted with rfl | rfl <;> decide
    | word => simpa [Place.admits] using admitted
    | start | gap =>
      simp only [Place.admits, Bool.and_eq_true, Bool.not_eq_true'] at admitted
      exact admitted.1
  cases inDouble with
  | false => exact splitFrom_plain (plain (by simpa using quoted)) dollar
  | true =>
    by_cases unquoted : place = .quoted
    · subst unquoted
      simp only [Place.admits, List.contains_eq_mem, List.mem_cons, List.not_mem_nil, or_false,
        Bool.not_eq_true', decide_eq_false_iff_not, not_or] at admitted
      exact splitFrom_quoted admitted.1 admitted.2.1 dollar
    · have special := plain unquoted
      simp only [Shell.isSpecial, List.contains_eq_mem, List.mem_cons, List.not_mem_nil,
        or_false, decide_eq_false_iff_not, not_or] at special
      exact splitFrom_quoted special.2.1 special.2.2.2.1 dollar

theorem pushed_kept {input : List Char}
    (ends : final = (splitFrom input (idle inDouble (pushed segments current) [])).push.segments) :
    ∀ segment ∈ pushed segments current, segment ∈ final := by
  intro segment member
  rw [ends]
  exact segment_kept (show segment ∈ (idle inDouble (pushed segments current) []).segments from member)

theorem next_quoted (quotes : place.next c = .quoted) : place = .quoted := by
  cases place with
  | quoted => rfl
  | closed => contradiction
  | start | word | gap =>
    simp only [Place.next] at quotes
    split at quotes <;> contradiction

theorem inWord_quoted (quotes : place.inWord = .quoted) : place = .quoted := by
  simp only [Place.inWord] at quotes
  split at quotes
  · assumption
  · contradiction

/-- The splitter stands before a piece of a command that it can read. -/
structure Ready (exact : Bool) (place : Place) (inDouble : Bool) (final segments : List (List Char))
    (current : List Char) (text : List Glyph) (tail : List Char) (shell : Shell) : Prop where
  formed : shell.WellFormed place = true
  scanned : shell.scannable exact inDouble = true
  inQuotes : place = .quoted → inDouble = true
  closes : Closes tail
  ends : final = (splitFrom (shell.render ++ tail) (idle inDouble segments current)).push.segments
  tracked : Tracked exact final current text

/-- It comes to its end, and the commands that end before have their segments. -/
def Reads (exact inDouble quoted : Bool) (final segments : List (List Char)) (current : List Char)
    (text : List Glyph) (tail : List Char) (shell : Shell) : Prop :=
  ∃ segments' current',
    splitFrom (shell.render ++ tail) (idle inDouble segments current) =
      splitFrom tail (idle inDouble segments' current') ∧
    Tracked exact final current' (walk quoted text shell).2 ∧
      ∀ command ∈ (walk quoted text shell).1, Covered exact final command

theorem Reads.after (shell remaining : Shell) {quoted : Bool} {between : List (List Char)}
    {moved : List Char} (extended : List Glyph) (inner : List (List Glyph))
    (stepped : splitFrom (shell.render ++ tail) (idle inDouble segments current) =
      splitFrom (remaining.render ++ tail) (idle inDouble between moved)) (walked : walk quoted text shell =
      (inner ++ (walk quoted extended remaining).1, (walk quoted extended remaining).2))
    (covered : ∀ command ∈ inner, Covered exact final command)
    (reads : Reads exact inDouble quoted final between moved extended tail remaining) :
    Reads exact inDouble quoted final segments current text tail shell := by
  obtain ⟨segments', current', reached, tracked, coveredRest⟩ := reads
  refine ⟨segments', current', stepped.trans reached, ?_, ?_⟩
  · rw [walked]
    exact tracked
  · intro command member
    rw [walked] at member
    rcases List.mem_append.mp member with early | late
    · exact covered command early
    · exact coveredRest command late

theorem Tracked.close (tracked : Tracked exact final current text) (kind : Substitution)
    (scanned : inDouble = true → kind ≠ .backtick → kind = .dollar ∧ exact = false) (ends : final =
      (splitFrom (kind.closing :: rest) (idle inDouble segments current)).push.segments) :
    Covered exact final text ∧ ∃ between moved, splitFrom (kind.closing :: rest) (idle inDouble segments current) =
        splitFrom rest (idle inDouble between moved) := by
  by_cases seen : inDouble = true → kind = .backtick
  · have closed := splitFrom_closing segments current rest kind seen
    rw [closed] at ends
    exact ⟨tracked.covered (pushed_kept ends), _, _, closed⟩
  · have unseen := Classical.not_imp.mp seen
    obtain ⟨rfl, rfl⟩ := scanned unseen.1 unseen.2
    have inQuotes := unseen.1
    subst inQuotes
    have closed : splitFrom (')' :: rest) (idle true segments current) =
        splitFrom rest (idle true segments (current ++ [')'])) :=
      splitFrom_quoted (by decide) (by decide) (by simp)
    refine ⟨?_, _, _, closed⟩
    by_cases substituted : Glyph.hole ∈ text
    · exact tracked.begun substituted
    · apply covered_of_current rest (idle true segments (current ++ [')'])) substituted
      · rw [← tracked.literal substituted]
        rfl
      · rw [ends, ← closed]
        rfl

theorem reads (shell : Shell) : ∀ {place : Place} {inDouble : Bool} (quoted : Bool)
    {segments : List (List Char)} {current : List Char} {text : List Glyph} {tail : List Char},
    Ready exact place inDouble final segments current text tail shell →
      Reads exact inDouble quoted final segments current text tail shell := by
  induction shell with
  | done =>
    intro place inDouble quoted segments current text tail ready
    exact ⟨segments, current, rfl, ready.tracked, by simp [walk]⟩
  | plain c rest ih =>
    intro place inDouble quoted segments current text tail ready
    have formed := ready.formed
    simp only [Shell.WellFormed, Bool.and_eq_true, Bool.not_eq_true', Bool.and_eq_false_iff,
      beq_eq_false_iff_ne] at formed
    obtain ⟨⟨admitted, dollar⟩, formedRest⟩ := formed
    have lookahead : ¬ (c = '$' ∧ (rest.render ++ tail).head? = some '(') := by
      rintro ⟨isDollar, opens⟩
      rcases dollar with other | other
      · exact other isDollar
      · exact head_append_ne ready.closes other (by decide) opens
    have stepped := splitFrom_admitted segments current admitted ready.inQuotes lookahead
    apply Reads.after (.plain c rest) rest _ [] stepped rfl (by simp)
    apply ih quoted
    exact {
      formed := formedRest
      scanned := ready.scanned
      inQuotes := fun quotes => ready.inQuotes (next_quoted quotes)
      closes := ready.closes
      ends := by rw [ready.ends, ← stepped, Shell.render, List.cons_append]
      tracked := ready.tracked.extend [.char c quoted] (by simp) }
  | escaped c rest ih =>
    intro place inDouble quoted segments current text tail ready
    exact absurd ready.scanned (by simp [Shell.scannable])
  | single quotation rest ih =>
    intro place inDouble quoted segments current text tail ready
    have formed := ready.formed
    have scanned := ready.scanned
    simp only [Shell.WellFormed, Bool.and_eq_true, Bool.not_eq_true', List.contains_eq_mem,
      decide_eq_false_iff_not] at formed
    simp only [Shell.scannable, Bool.and_eq_true, Bool.not_eq_true'] at scanned
    obtain ⟨unquoted, scannedRest⟩ := scanned
    subst unquoted
    have stepped := splitFrom_single segments current (rest.render ++ tail) formed.1.2
    have read : chars (.mark :: quotation.map (.char · true)) = quotation := by
      rw [chars, List.filterMap_cons_none rfl, List.filterMap_map]
      exact List.filterMap_some
    have extended := ready.tracked.extend (.mark :: quotation.map (.char · true)) (by simp)
    rw [read] at extended
    have rendered : (Shell.single quotation rest).render ++ tail =
        '\'' :: (quotation ++ '\'' :: (rest.render ++ tail)) := by
      simp [Shell.render]
    rw [← rendered] at stepped
    apply Reads.after (.single quotation rest) rest _ [] stepped rfl (by simp)
    apply ih quoted
    exact {
      formed := formed.2
      scanned := scannedRest
      inQuotes := by simp
      closes := ready.closes
      ends := by rw [ready.ends, stepped]
      tracked := extended }
  | double body rest bodyIH restIH =>
    intro place inDouble quoted segments current text tail ready
    have formed := ready.formed
    have scanned := ready.scanned
    simp only [Shell.WellFormed, Bool.and_eq_true] at formed
    simp only [Shell.scannable, Bool.and_eq_true, Bool.not_eq_true'] at scanned
    obtain ⟨⟨unquoted, scannedBody⟩, scannedRest⟩ := scanned
    subst unquoted
    have rendered : (Shell.double body rest).render ++ tail =
        '"' :: (body.render ++ '"' :: (rest.render ++ tail)) := by
      simp [Shell.render]
    have ends := ready.ends
    rw [rendered, splitFrom_quote] at ends
    have marked := ready.tracked.extend [.mark] (by simp)
    rw [show current ++ chars [.mark] = current from List.append_nil _] at marked
    obtain ⟨between, moved, reached, tracked, covered⟩ := bodyIH true {
      formed := formed.1.2
      scanned := scannedBody
      inQuotes := fun _ => rfl
      closes := by simp [Closes]
      ends := ends
      tracked := marked }
    have stepped : splitFrom ((Shell.double body rest).render ++ tail) (idle false segments current) =
          splitFrom (rest.render ++ tail) (idle false between moved) := by
      rw [rendered, splitFrom_quote]
      exact reached.trans splitFrom_quote
    apply Reads.after (.double body rest) rest _ _ stepped rfl covered
    apply restIH quoted
    exact {
      formed := formed.2
      scanned := scannedRest
      inQuotes := by simp
      closes := ready.closes
      ends := by rw [ready.ends, stepped]
      tracked := tracked }
  | substitute kind body rest bodyIH restIH =>
    intro place inDouble quoted segments current text tail ready
    have formed := ready.formed
    have scanned := ready.scanned
    simp only [Shell.WellFormed, Bool.and_eq_true] at formed
    simp only [Shell.scannable, Bool.and_eq_true, Bool.or_eq_true, Bool.not_eq_true', beq_iff_eq] at scanned
    obtain ⟨⟨executed, scannedBody⟩, scannedRest⟩ := scanned
    have seen : inDouble = true → kind = .dollar ∨ kind = .backtick := by
      rintro rfl
      rcases executed with (other | backtick) | dollar
      · contradiction
      · exact .inr backtick
      · exact .inl dollar.1
    have opened := splitFrom_opening segments current (body.render ++ kind.closing :: (rest.render ++ tail)) kind seen
    have rendered : (Shell.substitute kind body rest).render ++ tail =
        kind.opening ++ (body.render ++ kind.closing :: (rest.render ++ tail)) := by
      simp [Shell.render]
    have ends := ready.ends
    rw [rendered, opened] at ends
    obtain ⟨inner, left, reached, tracked, covered⟩ := bodyIH false {
      formed := formed.1.2
      scanned := scannedBody
      inQuotes := by simp
      closes := by cases kind <;> simp [Closes, Substitution.closing]
      ends := ends
      tracked := tracked_nil }
    have kept := pushed_kept ends
    rw [reached] at ends
    obtain ⟨last, between, moved, closed⟩ := tracked.close kind (by
        rintro rfl other
        rcases executed with (no | backtick) | dollar
        · contradiction
        · contradiction
        · exact dollar) ends
    have stepped : splitFrom ((Shell.substitute kind body rest).render ++ tail) (idle inDouble segments current) =
          splitFrom (rest.render ++ tail) (idle inDouble between moved) := by
      rw [rendered, opened]
      exact reached.trans closed
    apply Reads.after (.substitute kind body rest) rest (text ++ [.hole])
      ((walk false [] body).1 ++ [(walk false [] body).2]) stepped
    · simp [walk]
    · intro command member
      rcases List.mem_append.mp member with early | own
      · exact covered command early
      · rw [List.mem_singleton.mp own]
        exact last
    · apply restIH quoted
      exact {
        formed := formed.2
        scanned := scannedRest
        inQuotes := fun quotes => ready.inQuotes (inWord_quoted quotes)
        closes := ready.closes
        ends := by rw [ready.ends, stepped]
        tracked := ready.tracked.substitute kept moved }
  | group body rest bodyIH restIH =>
    intro place inDouble quoted segments current text tail ready
    exact absurd ready.scanned (by simp [Shell.scannable])
  | operator sign rest ih =>
    intro place inDouble quoted segments current text tail ready
    have formed := ready.formed
    have scanned := ready.scanned
    simp only [Shell.WellFormed, Bool.and_eq_true, Bool.not_eq_true', Bool.and_eq_false_iff,
      beq_eq_false_iff_ne] at formed
    simp only [Shell.scannable, Bool.and_eq_true, Bool.not_eq_true'] at scanned
    obtain ⟨unquoted, scannedRest⟩ := scanned
    subst unquoted
    have stepped := splitFrom_operator segments current (rest.render ++ tail) sign
      (fun background => head_append_ne ready.closes
        (formed.1.1.2.resolve_left fun other => other background) (by decide))
      (fun pipe => head_append_ne ready.closes
        (formed.1.2.resolve_left fun other => other pipe) (by decide))
    have rendered : (Shell.operator sign rest).render ++ tail = sign.text ++ (rest.render ++ tail) := by
      simp [Shell.render]
    rw [← rendered] at stepped
    have ends := ready.ends
    rw [stepped] at ends
    have covered := ready.tracked.covered (pushed_kept ends)
    apply Reads.after (.operator sign rest) rest _ [text] stepped rfl (by simpa using covered)
    apply ih quoted
    exact {
      formed := formed.2
      scanned := scannedRest
      inQuotes := by simp
      closes := ready.closes
      ends := ends
      tracked := tracked_nil }

end Simulation

/-- What the policy is asked about a simple command. -/
def BashCommandPolicy.permits (policy : BashCommandPolicy) (letters : LowerCase)
    (command : List Shell.Glyph) : Prop :=
  policy.denies letters (Shell.lead command) = false ∧
    (policy.hasAllowlist = true → policy.allows letters (Shell.lead command) = true)

/-- The commands that the splitter and its trimming take apart rightly. -/
structure Inspectable (letters : LowerCase) (policy : BashCommandPolicy) (shell : Shell) :
    Prop where
  scanned : shell.scannable policy.hasAllowlist false = true
  literal : ∀ command ∈ shell.simpleCommands, Shell.lead command ≠ []
  trimmed : ∀ command ∈ shell.simpleCommands,
    policy.denies letters (Shell.lead command) = true →
      policy.denies letters (trimEnd (Shell.lead command)) = true

section Soundness

open Shell (lead simpleCommands)

variable {letters : LowerCase} {policy : BashCommandPolicy} {shell : Shell}
variable {command : List Shell.Glyph}

theorem commands_covered {exact : Bool} (formed : shell.WellFormed .start = true)
    (scanned : shell.scannable exact false = true) (member : command ∈ simpleCommands shell) :
    Covered exact (splitShellCommands shell.render) command := by
  have ready : Ready exact .start false (splitShellCommands shell.render) [] [] [] [] shell := {
    formed := formed
    scanned := scanned
    inQuotes := by simp
    closes := by simp [Closes]
    ends := by rw [List.append_nil]; rfl
    tracked := tracked_nil }
  obtain ⟨segments', current', reached, tracked, covered⟩ := reads shell false ready
  have ends := ready.ends
  rw [reached] at ends
  obtain ⟨walked, _⟩ := List.mem_filter.mp member
  rcases List.mem_append.mp walked with early | last
  · exact covered command early
  · rw [List.mem_singleton.mp last]
    have kept : ∀ segment ∈ pushed segments' current', segment ∈ splitShellCommands shell.render := by
      intro segment own
      rw [ends]
      exact own
    exact tracked.covered kept

theorem denies_iff {text : List Char} :
    policy.denies letters text = true ↔
      ∃ start ∈ policy.denyPrefixes, letters.lower start.toList <+: letters.lower text := by
  simp [BashCommandPolicy.denies, letters.startsWith_iff]

theorem allows_iff {text : List Char} :
    policy.allows letters text = true ↔
      ∃ start ∈ policy.allowPrefixes, letters.lower start.toList <+: letters.lower text := by
  simp [BashCommandPolicy.allows, letters.startsWith_iff]

theorem denies_append {text blanks rest : List Char} (spaces : ∀ c ∈ blanks, isSpace c = true)
    (closed : ∀ c ∈ rest.head?, c = ')') (denied : policy.denies letters text = true) :
    policy.denies letters (text ++ (blanks ++ rest)) = true := by
  obtain ⟨start, member, begins⟩ := denies_iff.mp denied
  exact denies_iff.mpr ⟨start, member, begins.trans (letters.lower_prefix text spaces closed)⟩

theorem allows_trimEnd {text : List Char} (allowed : policy.allows letters (trimEnd text) = true) :
    policy.allows letters text = true := by
  obtain ⟨start, member, begins⟩ := allows_iff.mp allowed
  obtain ⟨blanks, spaces, same⟩ := trimEnd_append_dropped text
  have extended : letters.lower (trimEnd text) <+: letters.lower text := by
    have longer := letters.lower_prefix (trimEnd text) spaces (fun c (member : c ∈ [].head?) => by simp at member)
    rwa [List.append_nil, ← same] at longer
  exact allows_iff.mpr ⟨start, member, begins.trans extended⟩

theorem splitFrom_blank {input current : List Char} (blank : ∀ c ∈ input, isSpace c = true)
    (started : ∀ c ∈ current, isSpace c = true) : (splitFrom input (idle false [] current)).push.segments = [] := by
  induction input generalizing current with
  | nil => exact pushed_blank started
  | cons c input ih =>
    have space := blank c List.mem_cons_self
    have later : ∀ other ∈ input, isSpace other = true := fun other member =>
      blank other (List.mem_cons_of_mem _ member)
    have ordinary : Shell.isSpecial c = true → c = '\n' := by
      intro special
      simp only [Shell.isSpecial, List.contains_eq_mem, List.mem_cons, List.not_mem_nil, or_false,
        decide_eq_true_eq] at special
      rcases special with rfl | rfl | rfl | rfl | rfl | rfl | rfl | rfl | rfl | rfl | rfl | rfl <;>
        first
        | rfl
        | exact absurd space (by decide)
    by_cases newline : c = '\n'
    · subst newline
      have stepped := splitFrom_operator [] current input .newline (by simp) (by simp)
      rw [pushed_blank started] at stepped
      rw [show '\n' :: input = Operator.newline.text ++ input from rfl, stepped]
      exact ih later (by simp)
    · have dollar : ¬ (c = '$' ∧ input.head? = some '(') := by
        rintro ⟨rfl, _⟩
        exact absurd space (by decide)
      rw [splitFrom_plain (by simpa using fun special => newline (ordinary special)) dollar]
      apply ih later
      intro other member
      rcases List.mem_append.mp member with member | member
      · exact started other member
      · rw [List.mem_singleton.mp member]
        exact space

theorem accepted_permits (formed : shell.WellFormed .start = true) (inspectable : Inspectable letters policy shell)
    (accepted : enforceSegments letters policy (splitShellCommands shell.render) = .ok ())
    (member : command ∈ simpleCommands shell) : policy.permits letters command := by
  rcases commands_covered formed inspectable.scanned member with blank | covered
  · exact absurd blank (inspectable.literal command member)
  · obtain ⟨blanks, rest, spaces, closed, exactly, segment⟩ := covered
    obtain ⟨notDenied, allowed⟩ := enforceSegments_ok.mp accepted _ segment
    constructor
    · rw [← Bool.not_eq_true]
      intro denied
      have trimmed := inspectable.trimmed command member denied
      rw [denies_append spaces closed trimmed] at notDenied
      contradiction
    · intro listed
      obtain ⟨rfl, rfl⟩ := exactly listed
      apply allows_trimEnd
      simpa using allowed listed

end Soundness

def words (text : String) (rest : Shell) : Shell :=
  text.toList.foldr .plain rest

def gitOnly : BashCommandPolicy where
  allowAll := false
  allowPrefixes := ["git", "echo"]
  denyPrefixes := ["git push"]

/-- `git log $(git rev-parse HEAD) | echo "a; b"` -/
def inspectedCommand : Shell :=
  words "git log " (.substitute .dollar (words "git rev-parse HEAD" .done)
    (words " " (.operator .pipe (words " echo " (.double (words "a; b" .done) .done)))))

def builtPolicy : BashCommandPolicy :=
  (buildToolPolicy asciiLowerCase (some { allowedTools := ["Bash(git:*)", "Bash(echo:*)"] }) none none).bashPolicy

def noRemoval : BashCommandPolicy where
  allowAll := true
  allowPrefixes := []
  denyPrefixes := ["rm "]

/-- `(rm -rf /)` -/
def groupedRemoval : Shell :=
  .group (words "rm -rf /" .done) .done

end Lobu.Worker
