import Lobu.StrictJson.Reading

namespace Lobu.StrictJson

open Lobu.Foundation

/-! # Elements between brackets

The loop over the elements of an array or an object, for any element that reads what is spelled in
some way: it reads what is spelled with commas between, as long as each of the elements is allowed.
-/

section Decided

variable {ε α β : Type} {fits more : Prop} {outcome : Except ε α} {result : α} {final : β}

/-- A result where something holds, and a failure elsewhere. -/
def Decided (fits : Prop) (outcome : Except ε α) (result : α) : Prop :=
  (fits → outcome = .ok result) ∧ (¬fits → ∃ failure, outcome = .error failure)

theorem Decided.ok (holds : fits) (result : α) : Decided fits (.ok result : Except ε α) result :=
  ⟨fun _ => rfl, fun fails => absurd holds fails⟩

theorem Decided.error (fails : ¬fits) (failure : ε) (result : α) : Decided fits (.error failure) result :=
  ⟨fun holds => absurd holds fails, fun _ => ⟨failure, rfl⟩⟩

theorem Decided.congr {others : Prop} (decided : Decided fits outcome result)
    (same : others ↔ fits) : Decided others outcome result := by
  rwa [Decided, same]

theorem Decided.bind {rest : α → Except ε β} (first : Decided fits outcome result)
    (next : Decided more (rest result) final) : Decided (fits ∧ more) (outcome >>= rest) final := by
  by_cases holds : fits
  · rw [first.1 holds]
    exact next.congr (and_iff_right holds)
  · obtain ⟨failure, failed⟩ := first.2 holds
    rw [failed]
    exact .error (fun both => holds both.1) failure final

theorem Decided.then_ok {rest : α → Except ε β} (first : Decided fits outcome result)
    (next : rest result = .ok final) : Decided fits (outcome >>= rest) final := by
  have last : Decided True (rest result) final := by
    rw [next]
    exact .ok trivial final
  exact (first.bind last).congr (and_iff_left trivial).symm

theorem Decided.of_ok (decided : Decided fits outcome result) {other : α}
    (succeeded : outcome = .ok other) : fits ∧ other = result := by
  by_cases holds : fits
  · rw [decided.1 holds] at succeeded
    exact ⟨holds, (Except.ok.inj succeeded).symm⟩
  · obtain ⟨failure, failed⟩ := decided.2 holds
    rw [failed] at succeeded
    cases succeeded

end Decided

variable {ν σ α : Type}

/-- What reads one element, adds it to what was read before and counts its values. -/
structure ReadsElements (item : List Char → α → Prop) (push : σ → α → σ)
    (fresh : σ → α → Prop) (allowed : σ → Nat → α → Prop) (size : α → Nat)
    (element : σ → ParserState → Except Failure (σ × ParserState)) : Prop where
  sound : ∀ {result later state after}, element result state = .ok (later, after) →
    ∃ text entry, state.rest = text ++ after.rest ∧ item text entry ∧ fresh result entry ∧
      later = push result entry
  decides : ∀ {text rest entry} (result count), item text entry → NumeralEnds rest →
    Decided (allowed result count entry) (element result ⟨text ++ rest, count⟩)
      (push result entry, ⟨rest, count + size entry⟩)
  ends : ∀ result state, Ends (element result state)

/-- Each element is allowed after those before it. -/
def AllowedAll (push : σ → α → σ) (allowed : σ → Nat → α → Prop) (size : α → Nat) : σ → Nat → List α → Prop
  | _, _, [] => True
  | result, count, entry :: entries =>
    allowed result count entry ∧
      AllowedAll push allowed size (push result entry) (count + size entry) entries

/-- The elements between two brackets. -/
def Listed (item : List Char → α → Prop) (text : List Char) (entries : List α) : Prop :=
  entries = [] ∧ IsBlank text ∨ Separated item text entries

def IsClose (close : Char) : Prop := close = ']' ∨ close = '\x7d'

namespace IsClose

variable {close : Char} (is : IsClose close)
include is

theorem not_space : isJsonSpace close = false := by
  rcases is with rfl | rfl <;> decide

theorem ne_comma : ',' ≠ close := by
  rcases is with rfl | rfl <;> decide

theorem numeralEnds (rest : List Char) : NumeralEnds (close :: rest) := by
  intro c same
  cases same
  rcases is with rfl | rfl <;> decide

end IsClose

theorem skipWhitespace_before {blank : List Char} {c : Char} (spaces : IsBlank blank)
    (begins : isJsonSpace c = false) (rest : List Char) : skipWhitespace (blank ++ c :: rest) = c :: rest := by
  apply skipWhitespace_blank spaces
  intro first same
  cases same
  exact begins

section Begins

variable {item : List Char → α → Prop} {close : Char} {text : List Char} {entries : List α}
  (begins : ∀ text entry, item text entry →
    ∃ c more, text = c :: more ∧ isJsonSpace c = false ∧ c ≠ close)
include begins

theorem skipWhitespace_entry {blank : List Char} {entry : α} (spaces : IsBlank blank)
    (one : item text entry) (more : List Char) : skipWhitespace (blank ++ (text ++ more)) = text ++ more := by
  obtain ⟨c, others, rfl, noSpace, _⟩ := begins _ _ one
  exact skipWhitespace_before spaces noSpace (others ++ more)

theorem separated_begins (separated : Separated item text entries) (more : List Char) :
    ∃ c others, skipWhitespace (text ++ more) = c :: others ∧ c ≠ close ∧ entries.length ≤ others.length + 1 := by
  cases separated with
  | @last blank text value blanks before one after =>
    rw [List.append_assoc, List.append_assoc, skipWhitespace_entry begins before one]
    obtain ⟨c, others, rfl, _, unclosed⟩ := begins _ _ one
    exact ⟨c, _, rfl, unclosed, by simp⟩
  | @more blank text value blanks others values before one after separated =>
    have joined : blank ++ (text ++ (blanks ++ ',' :: others)) ++ more =
        blank ++ (text ++ (blanks ++ ',' :: (others ++ more))) := by simp
    have length := separated.length_le
    rw [joined, skipWhitespace_entry begins before one]
    obtain ⟨c, inside, rfl, _, unclosed⟩ := begins _ _ one
    refine ⟨c, inside ++ (blanks ++ ',' :: (others ++ more)), rfl, unclosed, ?_⟩
    simp only [List.length_cons, List.length_append]
    omega

end Begins

namespace StrictJsonParser

section Loop

variable {parser : StrictJsonParser ν} {close : Char} {item : List Char → α → Prop}
  {push : σ → α → σ} {fresh : σ → α → Prop} {allowed : σ → Nat → α → Prop} {size : α → Nat}
  {element : σ → ParserState → Except Failure (σ × ParserState)} {fuel : Nat} {result later : σ}
  {state after : ParserState} {text : List Char} {entries : List α}

section Reading

variable (reads : ReadsElements item push fresh allowed size element)
include reads

theorem parseSeparated_sound (count : Nat)
    (read : parser.parseSeparated close element fuel result state = .ok (later, after)) :
    ∃ text entries, state.rest = text ++ close :: after.rest ∧ Separated item text entries ∧
      AllowedAll push (fun result _ entry => fresh result entry) size result count entries ∧
      later = entries.foldl push result := by
  induction fuel generalizing result state count with
  | zero => cases read
  | succ fuel ih =>
    obtain ⟨⟨next, reached⟩, first, read⟩ := Transaction.except_bind_ok.mp read
    obtain ⟨text, entry, begins, one, new, rfl⟩ := reads.sound first
    obtain ⟨blanks, spaces, skipped⟩ := skipWhitespace_split reached.rest
    dsimp only at read
    split at read
    · rename_i left closed
      cases read
      rw [consume_eq_some_iff] at closed
      rw [closed] at skipped
      have last : Separated item ([] ++ (text ++ blanks)) [entry] :=
        .last isBlank_nil one spaces
      exact ⟨text ++ blanks, [entry], by rw [begins, skipped]; simp, last, ⟨new, trivial⟩, rfl⟩
    · obtain ⟨left, comma, read⟩ := Transaction.except_bind_ok.mp read
      obtain ⟨others, entries, shape, separated, each, rfl⟩ := ih (count + size entry) read
      obtain ⟨blank, before, around⟩ := skipWhitespace_split left
      rw [expect_ok_iff] at comma
      dsimp only at shape
      rw [shape] at around
      rw [comma, around] at skipped
      have more : Separated item ([] ++ (text ++ (blanks ++ ',' :: (blank ++ others))))
          (entry :: entries) := .more isBlank_nil one spaces (separated.blank before)
      exact ⟨text ++ (blanks ++ ',' :: (blank ++ others)), entry :: entries,
        by rw [begins, skipped]; simp, more, ⟨new, each⟩, rfl⟩

theorem parseSeparated_ends (enough : state.rest.length < fuel) :
    Ends (parser.parseSeparated close element fuel result state) := by
  induction fuel generalizing result state with
  | zero => omega
  | succ fuel ih =>
    apply (reads.ends result state).bind
    rintro ⟨next, reached⟩ first
    obtain ⟨text, entry, begins, _⟩ := reads.sound first
    obtain ⟨blanks, _, skipped⟩ := skipWhitespace_split reached.rest
    have beginsLength := congrArg List.length begins
    have skippedLength := congrArg List.length skipped
    rw [List.length_append] at beginsLength skippedLength
    dsimp only
    split
    · exact .ok _
    · apply (parser.expect_ends ',' _).bind
      intro left comma
      obtain ⟨blank, _, around⟩ := skipWhitespace_split left
      rw [expect_ok_iff] at comma
      have aroundLength := congrArg List.length around
      have commaLength := congrArg List.length comma
      rw [List.length_append] at aroundLength
      rw [List.length_cons] at commaLength
      exact ih (by simp only; omega)

theorem parseBracketed_ends (empty : σ) (state : ParserState) :
    Ends (parser.parseBracketed close element empty state) := by
  unfold parseBracketed
  dsimp only
  split
  · exact .ok _
  · exact parseSeparated_ends reads (by simp)

theorem parseBracketed_sound (read : parser.parseBracketed close element result state = .ok (later, after)) :
    ∃ text entries, state.rest.drop 1 = text ++ close :: after.rest ∧ Listed item text entries ∧
      AllowedAll push (fun result _ entry => fresh result entry) size result 0 entries ∧
      later = entries.foldl push result := by
  obtain ⟨blank, spaces, skipped⟩ := skipWhitespace_split (state.rest.drop 1)
  unfold parseBracketed at read
  dsimp only at read
  split at read
  · rename_i left closed
    cases read
    rw [consume_eq_some_iff] at closed
    exact ⟨blank, [], by rw [skipped, closed], Or.inl ⟨rfl, spaces⟩, trivial, rfl⟩
  · obtain ⟨text, entries, shape, separated, each, rfl⟩ := parseSeparated_sound reads 0 read
    dsimp only at shape
    exact ⟨blank ++ text, entries, by rw [skipped, shape]; simp, Or.inr (separated.blank spaces),
      each, rfl⟩

section Complete

variable (closes : IsClose close)
  (begins : ∀ text entry, item text entry →
    ∃ c more, text = c :: more ∧ isJsonSpace c = false ∧ c ≠ close)
include closes begins

theorem parseSeparated_decides (separated : Separated item text entries) (rest : List Char)
    (enough : entries.length ≤ fuel) (count : Nat) :
    Decided (AllowedAll push allowed size result count entries)
      (parser.parseSeparated close element fuel result ⟨skipWhitespace (text ++ close :: rest), count⟩)
      (entries.foldl push result, ⟨rest, count + (entries.map size).sum⟩) := by
  induction separated generalizing fuel result count with
  | @last blank text value blanks before one after =>
    cases fuel with
    | zero => simp at enough
    | succ fuel =>
      have start : skipWhitespace (blank ++ (text ++ blanks) ++ close :: rest) =
          text ++ (blanks ++ close :: rest) := by
        rw [List.append_assoc, List.append_assoc, skipWhitespace_entry begins before one]
      have closed : consume close (skipWhitespace (blanks ++ close :: rest)) = some rest := by
        rw [skipWhitespace_before after closes.not_space, consume_same]
      have first := reads.decides result count one (numeralEnds_of_blank after (closes.numeralEnds rest))
      rw [start, parseSeparated]
      apply Decided.congr _ (and_iff_left trivial)
      apply first.then_ok
      simp only [closed, List.foldl_cons, List.foldl_nil, List.map_cons, List.map_nil,
        List.sum_cons, List.sum_nil, Nat.add_zero]
      rfl
  | @more blank text value blanks others values before one after more ih =>
    cases fuel with
    | zero => simp at enough
    | succ fuel =>
      have start : skipWhitespace (blank ++ (text ++ (blanks ++ ',' :: others)) ++ close :: rest) =
          text ++ (blanks ++ ',' :: (others ++ close :: rest)) := by
        have joined : blank ++ (text ++ (blanks ++ ',' :: others)) ++ close :: rest =
            blank ++ (text ++ (blanks ++ ',' :: (others ++ close :: rest))) := by simp
        rw [joined, skipWhitespace_entry begins before one]
      have comma : skipWhitespace (blanks ++ ',' :: (others ++ close :: rest)) =
          ',' :: (others ++ close :: rest) := skipWhitespace_before after (by decide) _
      have unclosed : consume close (',' :: (others ++ close :: rest)) = none := by
        rw [consume, if_neg closes.ne_comma]
      have commaEnds : NumeralEnds (',' :: (others ++ close :: rest)) := by
        intro c same
        cases same
        decide
      have first := reads.decides result count one (numeralEnds_of_blank after commaEnds)
      rw [start, parseSeparated]
      apply first.bind
      simp only [comma, unclosed, expect_same]
      have later := @ih _ (push result value) (Nat.le_of_succ_le_succ enough) (count + size value)
      rw [List.map_cons, List.sum_cons, ← Nat.add_assoc]
      exact later

theorem parseBracketed_decides (parser : StrictJsonParser ν) (empty : σ)
    (listed : Listed item text entries) (opener : Char) (rest : List Char) (count : Nat) :
    Decided (AllowedAll push allowed size empty count entries)
      (parser.parseBracketed close element empty ⟨opener :: (text ++ close :: rest), count⟩)
      (entries.foldl push empty, ⟨rest, count + (entries.map size).sum⟩) := by
  unfold parseBracketed
  dsimp only
  rw [List.drop_one, List.tail_cons]
  rcases listed with ⟨rfl, spaces⟩ | separated
  · rw [skipWhitespace_before spaces closes.not_space, consume_same]
    exact .ok trivial _
  · obtain ⟨c, others, begun, unclosed, length⟩ :=
      separated_begins begins separated (close :: rest)
    have missing : consume close (skipWhitespace (text ++ close :: rest)) = none := by
      rw [begun, consume, if_neg unclosed]
    have enough : entries.length ≤ (skipWhitespace (text ++ close :: rest)).length + 1 := by
      rw [begun, List.length_cons]
      omega
    rw [missing]
    exact parseSeparated_decides reads closes begins separated rest enough count

end Complete

end Reading

end Loop

end StrictJsonParser

end Lobu.StrictJson
