import Lobu.Foundation.Runs
import Lobu.Foundation.Text

namespace Lobu.Search

open Lobu.Foundation

/-! # Text queries

The OR-list of lexemes for `to_tsquery` is built twice from the text of a query: in JavaScript and
by an SQL expression.
-/

def STOPWORDS : List String :=
  ["what", "who", "where", "when", "which", "why", "how", "does", "did", "is", "are", "was", "were",
    "the", "a", "an", "of", "for", "to", "at", "on", "in", "after", "before", "now", "current",
    "latest", "approved", "made"]

def isStopword (token : List Char) : Bool := STOPWORDS.contains (String.ofList token)

/-- `[a-z0-9]` -/
def isTermChar (c : Char) : Bool := c.isLower || c.isDigit

/-- What stands between two lexemes. -/
def bar : List Char := " | ".toList

/-- `tokens.join(' | ')`, or null -/
def buildTsqueryString (toLowerCase : List Char → List Char) (queryText : List Char) : Option (List Char) :=
  let replaced := replaceRuns (fun c => !(isTermChar c || isSpace c)) ' ' (toLowerCase queryText)
  let tokens := (replaced.splitOnP isSpace).filter fun token =>
    decide (0 < token.length) && !isStopword token
  if tokens.length > 0 then some (bar.intercalate tokens) else none

/-- The database: `lower`, and the classes of its regular expressions under its locale. -/
structure Database where
  lower : List Char → List Char
  isWordChar : Char → Bool
  isSpace : Char → Bool
  wordChar_of_term : ∀ c, isTermChar c = true → isWordChar c = true
  term_of_space : ∀ c, isSpace c = true → isTermChar c = false
  space_blank : isSpace ' ' = true

section Sql

variable (database : Database)

/-- `regexp_replace(text, '\m(...)\M', ' ', 'g')`: a match is a whole word. -/
def blankStopwords (text : List Char) : List Char :=
  mapRuns database.isWordChar (fun word => if isStopword word then [' '] else word) text

/-- `trim(text)` -/
def trimBlanks (text : List Char) : List Char :=
  (text.dropWhile fun c => decide (c = ' ')).rdropWhile fun c => decide (c = ' ')

/-- `NORMALIZED_QUERY_SQL` -/
def normalizedQuery (query : List Char) : List Char :=
  trimBlanks (replaceRuns (fun c => !(isTermChar c || database.isSpace c)) ' '
    (blankStopwords database (database.lower query)))

/-- The text that `TSQUERY_SQL` hands to `to_tsquery`, or null. -/
def tsquerySql (query : List Char) : Option (List Char) :=
  let normalized := normalizedQuery database query
  if normalized.isEmpty then none
  else some (mapRuns database.isSpace (fun _ => bar) normalized)

end Sql

def isLexeme (text : List Char) : Bool := !text.isEmpty && text.all isTermChar

/-- The terms of a text in which lexemes stand between bars, none if its syntax is wrong. -/
def tsqueryTerms (text : List Char) : Option (List (List Char)) :=
  let operands := (text.splitOnP fun c => decide (c = '|')).map trimBlanks
  if operands.all isLexeme then some operands else none

def Valid (text : List Char) : Prop := (tsqueryTerms text).isSome = true

/-- Two OR-lists are absent together, and otherwise both are well formed and have the same terms. -/
def SameQuery : Option (List Char) → Option (List Char) → Prop
  | none, none => True
  | some first, some second => ∃ terms others, tsqueryTerms first = some terms ∧
      tsqueryTerms second = some others ∧ ∀ term, term ∈ terms ↔ term ∈ others
  | _, _ => False

variable {word text more : List Char} {terms : List (List Char)}

theorem termChar_plain {c : Char} (term : isTermChar c = true) : c ≠ ' ' ∧ c ≠ '|' := by
  constructor
  · intro same
    subst same
    cases term
  · intro same
    subst same
    cases term

theorem space_of_termChar {c : Char} (term : isTermChar c = true) : isSpace c = false := by
  rw [isTermChar, Bool.or_eq_true, isLower_iff, isDigit_iff] at term
  simp only [isSpace, Bool.or_eq_false_iff, decide_eq_false_iff_not, List.contains_eq_mem,
    List.mem_cons, List.not_mem_nil, or_false]
  omega

theorem isLexeme_iff : isLexeme text = true ↔ text ≠ [] ∧ ∀ c ∈ text, isTermChar c = true := by
  simp [isLexeme]

theorem trimBlanks_word (whole : ∀ c ∈ word, c ≠ ' ') : trimBlanks word = word := by
  have kept : word.dropWhile (fun c => decide (c = ' ')) = word := by
    rw [List.dropWhile_eq_self_iff]
    intro nonempty
    simpa using whole _ (List.getElem_mem nonempty)
  rw [trimBlanks, kept, List.rdropWhile_eq_self_iff]
  intro nonempty
  simpa using whole _ (List.getLast_mem nonempty)

theorem trimBlanks_word_blank (whole : ∀ c ∈ word, c ≠ ' ') : trimBlanks (word ++ [' ']) = word := by
  cases word with
  | nil => rfl
  | cons c word =>
    have trimmed := trimBlanks_word whole
    rw [List.forall_mem_cons] at whole
    have kept : ((c :: word) ++ [' ']).dropWhile (fun c => decide (c = ' ')) = (c :: word) ++ [' '] := by
      rw [List.cons_append, List.dropWhile_cons_of_neg (by simpa using whole.1)]
    have keptWord : (c :: word).dropWhile (fun c => decide (c = ' ')) = c :: word := by
      rw [List.dropWhile_cons_of_neg (by simpa using whole.1)]
    rw [trimBlanks, keptWord] at trimmed
    rw [trimBlanks, kept, List.rdropWhile_concat_pos _ _ _ (by simp), trimmed]

theorem trimBlanks_cons : trimBlanks (' ' :: text) = trimBlanks text := by
  rw [trimBlanks, List.dropWhile_cons_of_pos (by simp), trimBlanks]

theorem tsqueryTerms_bar (whole : ∀ c ∈ word, isTermChar c = true) :
    tsqueryTerms (word ++ (bar ++ text)) = if word = [] then none else (tsqueryTerms text).map (word :: ·) := by
  have plain : ∀ c ∈ word, c ≠ ' ' := fun c member => (termChar_plain (whole c member)).1
  have unbarred : ∀ c ∈ word ++ [' '], decide (c = '|') = false := by
    intro c member
    rcases List.mem_append.mp member with inWord | isLast
    · simpa using (termChar_plain (whole c inWord)).2
    · rw [List.mem_singleton.mp isLast]
      rfl
  have split : (word ++ (bar ++ text)).splitOnP (fun c => decide (c = '|')) =
      (word ++ [' ']) :: (' ' :: text).splitOnP fun c => decide (c = '|') := by
    have shape : word ++ (bar ++ text) = (word ++ [' ']) ++ '|' :: ' ' :: text := by
      rw [List.append_assoc]
      rfl
    rw [shape, List.splitOnP_append_cons _ _ (by simp), List.splitOnP_eq_singleton unbarred]
    rfl
  obtain ⟨piece, pieces, cut⟩ :=
    List.exists_cons_of_ne_nil (List.splitOnP_ne_nil (fun c => decide (c = '|')) text)
  have splitBlank : (' ' :: text).splitOnP (fun c => decide (c = '|')) = (' ' :: piece) :: pieces := by
    rw [List.splitOnP_cons_eq_if_modifyHead, if_neg (by simp), cut]
    rfl
  simp only [tsqueryTerms, split, splitBlank, cut, List.map_cons, trimBlanks_word_blank plain,
    trimBlanks_cons, List.all_cons]
  by_cases empty : word = []
  · rw [if_pos empty, empty]
    rfl
  · rw [if_neg empty, isLexeme_iff.mpr ⟨empty, whole⟩, Bool.true_and]
    split <;> rfl

theorem tsqueryTerms_word (whole : ∀ c ∈ word, isTermChar c = true) :
    tsqueryTerms word = if word = [] then none else some [word] := by
  have unbarred : ∀ c ∈ word, decide (c = '|') = false := fun c member => by
    simpa using (termChar_plain (whole c member)).2
  have plain : ∀ c ∈ word, c ≠ ' ' := fun c member => (termChar_plain (whole c member)).1
  simp only [tsqueryTerms, List.splitOnP_eq_singleton unbarred, List.map_cons, List.map_nil,
    trimBlanks_word plain, List.all_cons, List.all_nil, Bool.and_true]
  by_cases empty : word = []
  · rw [if_pos empty, empty]
    rfl
  · rw [if_neg empty, isLexeme_iff.mpr ⟨empty, whole⟩, if_pos rfl]

theorem tsqueryTerms_intercalate (lexemes : ∀ term ∈ terms, isLexeme term = true)
    (nonempty : terms ≠ []) : tsqueryTerms (bar.intercalate terms) = some terms := by
  induction terms with
  | nil => exact absurd rfl nonempty
  | cons term terms ih =>
    rw [List.forall_mem_cons] at lexemes
    obtain ⟨word, whole⟩ := isLexeme_iff.mp lexemes.1
    cases terms with
    | nil => rw [List.intercalate_singleton, tsqueryTerms_word whole, if_neg word]
    | cons next terms =>
      rw [List.intercalate_cons_cons, List.append_assoc, tsqueryTerms_bar whole, if_neg word,
        ih lexemes.2 (List.cons_ne_nil _ _)]
      rfl

end Lobu.Search
