import Lobu.Search.TextQuery

namespace Lobu.Search

open Lobu.Foundation

/-! # The two OR-lists agree

Between stop words and word boundaries: the SQL expression removes a stop word only where it is a
whole word to the database, and leaves white space at the ends that is no blank.
-/

variable {toLowerCase : List Char → List Char} {database : Database} {query text : List Char}

/-- The longest parts of ASCII letters and digits. -/
def termsOf (text : List Char) : List (List Char) := words (fun c => !isTermChar c) text

/-- The words as the database sees them. -/
def wordsOf (database : Database) (text : List Char) : List (List Char) :=
  words (fun c => !database.isWordChar c) text

/-- Letters, digits and white space other than blanks, outside the stop words. -/
def significant (database : Database) (text : List Char) : List Char :=
  (blankStopwords database text).filter fun c =>
    (isTermChar c || database.isSpace c) && !decide (c = ' ')

/-- Where the two lists agree. -/
structure Agrees (toLowerCase : List Char → List Char) (database : Database) (query : List Char) :
    Prop where
  /-- Both ways to lower-case leave the same terms, stop words apart. -/
  lower : ∀ term, isStopword term = false →
    (term ∈ termsOf (toLowerCase query) ↔ term ∈ termsOf (database.lower query))
  /-- A stop word is a whole word, not part of one. -/
  apart : ∀ word ∈ wordsOf database (database.lower query), isStopword word = false →
    ∀ term ∈ termsOf word, isStopword term = false
  /-- White space other than blanks stands between terms only. -/
  framed : significant database (database.lower query) = [] ∨
    Framed database.isSpace (significant database (database.lower query))

theorem stopwords_plain : ∀ stopword ∈ STOPWORDS, stopword.toList.all isTermChar = true := by
  decide

theorem termsOf_stopword (stopword : isStopword text = true) : termsOf text = [text] := by
  have member : String.ofList text ∈ STOPWORDS := by simpa [isStopword] using stopword
  have plain := stopwords_plain _ member
  rw [String.toList_ofList, List.all_eq_true] at plain
  have nonempty : text ≠ [] := by
    intro empty
    rw [empty] at member
    revert member
    decide
  exact words_word nonempty fun c inText => by rw [plain c inText]; rfl

variable {term : List Char}

theorem termsOf_term (member : term ∈ termsOf text) : isLexeme term = true := by
  obtain ⟨nonempty, whole⟩ := isWord_of_mem member
  exact isLexeme_iff.mpr ⟨nonempty, fun c inTerm => by simpa using whole c inTerm⟩

theorem mem_termsOf : term ∈ termsOf text ↔ ∃ word ∈ wordsOf database text, term ∈ termsOf word := by
  have finer : ∀ c, database.isWordChar c = false → (!isTermChar c) = true := by
    intro c outside
    cases term : isTermChar c with
    | false => rfl
    | true =>
      rw [database.wordChar_of_term c term] at outside
      cases outside
  rw [termsOf, words_words finer, List.mem_flatMap]
  rfl

theorem mem_termsOf_blankStopwords :
    term ∈ termsOf (blankStopwords database text) ↔
      ∃ word ∈ wordsOf database text, isStopword word = false ∧ term ∈ termsOf word := by
  have finer : ∀ c, database.isWordChar c = false → (!isTermChar c) = true := by
    intro c outside
    cases term : isTermChar c with
    | false => rfl
    | true =>
      rw [database.wordChar_of_term c term] at outside
      cases outside
  rw [termsOf, blankStopwords, words_mapRuns finer, List.mem_flatMap]
  refine exists_congr fun word => and_congr_right fun _ => ?_
  cases stopword : isStopword word with
  | true =>
    rw [if_pos rfl, words_cons_break [] rfl, words_nil]
    simp
  | false => simp [termsOf]

theorem buildTsqueryString_eq :
    buildTsqueryString toLowerCase query =
      if (termsOf (toLowerCase query)).filter (fun term => !isStopword term) = [] then none
      else some (bar.intercalate ((termsOf (toLowerCase query)).filter fun term => !isStopword term)) := by
  have breaks : ∀ c, (isSpace c || !(isTermChar c || isSpace c)) = !isTermChar c := by
    intro c
    cases term : isTermChar c with
    | true => simp [space_of_termChar term]
    | false => simp
  have tokens : ((replaceRuns (fun c => !(isTermChar c || isSpace c)) ' '
      (toLowerCase query)).splitOnP isSpace).filter
        (fun token => decide (0 < token.length) && !isStopword token) =
      (termsOf (toLowerCase query)).filter fun term => !isStopword term := by
    have found : words isSpace (replaceRuns (fun c => !(isTermChar c || isSpace c)) ' '
        (toLowerCase query)) = _ := words_replaceRuns rfl (toLowerCase query)
    rw [words_congr fun c _ => breaks c] at found
    rw [termsOf, ← found, words, List.filter_filter]
    refine List.filter_congr fun token _ => ?_
    cases token <;> simp
  simp only [buildTsqueryString, tokens]
  by_cases empty : (termsOf (toLowerCase query)).filter (fun term => !isStopword term) = []
  · rw [if_pos empty, empty]
    rfl
  · rw [if_neg empty, if_pos (List.length_pos_iff.mpr empty)]

theorem tsqueryTerms_buildTsqueryString {built : List Char}
    (found : buildTsqueryString toLowerCase query = some built) :
    tsqueryTerms built = some ((termsOf (toLowerCase query)).filter fun term => !isStopword term) := by
  rw [buildTsqueryString_eq] at found
  split at found
  · cases found
  · rename_i nonempty
    cases found
    refine tsqueryTerms_intercalate (fun term member => ?_) nonempty
    exact termsOf_term (List.mem_filter.mp member).1

theorem tsqueryTerms_barred
    (plain : ∀ c ∈ text, database.isSpace c = false → isTermChar c = true) (terms : List (List Char)) :
    tsqueryTerms (mapRuns database.isSpace (fun _ => bar) text) = some terms ↔
      Framed database.isSpace text ∧ terms = words database.isSpace text := by
  induction text using gap_induction database.isSpace generalizing terms with
  | last word whole =>
    have lexeme : ∀ c ∈ word, isTermChar c = true := fun c member => plain c member (whole c member)
    rw [mapRuns_none whole, tsqueryTerms_word lexeme, framed_word whole]
    by_cases empty : word = []
    · simp [empty]
    · rw [if_neg empty, words_word empty whole]
      simp [empty, eq_comm]
  | more word gap rest whole nonempty wide ended ih =>
    have lexeme : ∀ c ∈ word, isTermChar c = true :=
      fun c member => plain c (List.mem_append_left _ member) (whole c member)
    have later : ∀ c ∈ rest, database.isSpace c = false → isTermChar c = true := fun c member =>
      plain c (List.mem_append_right _ (List.mem_append_right _ member))
    have gapBar : changedRun (fun _ => bar) gap = bar := by
      rw [changedRun, if_neg (by simpa using nonempty)]
    rw [mapRuns_gap whole wide ended, gapBar, tsqueryTerms_bar lexeme, framed_gap whole nonempty wide ended]
    by_cases empty : word = []
    · simp [empty]
    · have split : words database.isSpace (word ++ (gap ++ rest)) = word :: words database.isSpace rest := by
        cases gap with
        | nil => exact absurd rfl nonempty
        | cons first gap =>
          rw [List.forall_mem_cons] at wide
          rw [List.cons_append, words_append_break _ _ wide.1, words_breaks_append _ wide.2, words_word empty whole]
          rfl
      rw [if_neg empty, split, Option.map_eq_some_iff]
      simp only [ih later]
      constructor
      · intro found
        obtain ⟨found, ⟨framed, isFound⟩, isTerms⟩ := found
        exact ⟨⟨empty, framed⟩, by rw [← isTerms, isFound]⟩
      · intro found
        obtain ⟨⟨-, framed⟩, isTerms⟩ := found
        exact ⟨_, ⟨framed, rfl⟩, isTerms.symm⟩

theorem ends_normalizedQuery :
    (normalizedQuery database query).head? = (significant database (database.lower query)).head? ∧
      (normalizedQuery database query).getLast? = (significant database (database.lower query)).getLast? := by
  have ends := ends_trimmed (fun c => decide (c = ' '))
    (replaceRuns (fun c => !(isTermChar c || database.isSpace c)) ' '
      (blankStopwords database (database.lower query)))
  rw [replaceRuns, filter_replaceRunsFrom, ← replaceRuns] at ends
  simpa [normalizedQuery, trimBlanks, significant] using ends

theorem normalizedQuery_plain {c : Char} (member : c ∈ normalizedQuery database query)
    (letter : database.isSpace c = false) : isTermChar c = true := by
  have inText : c ∈ replaceRuns (fun c => !(isTermChar c || database.isSpace c)) ' '
      (blankStopwords database (database.lower query)) :=
    (List.dropWhile_sublist _).subset ((List.rdropWhile_prefix _ _).subset member)
  rcases mem_replaceRunsFrom inText with blank | ⟨_, kept⟩
  · rw [blank, database.space_blank] at letter
    cases letter
  · simpa [letter] using kept

theorem words_normalizedQuery :
    words database.isSpace (normalizedQuery database query) =
      termsOf (blankStopwords database (database.lower query)) := by
  have breaks : ∀ c, (database.isSpace c || !(isTermChar c || database.isSpace c)) = !isTermChar c := by
    intro c
    cases space : database.isSpace c with
    | true => simp [database.term_of_space c space]
    | false => simp
  rw [normalizedQuery, trimBlanks, words_trimmed, words_replaceRuns database.space_blank,
    words_congr fun c _ => breaks c, termsOf]
  intro c blank
  rw [of_decide_eq_true blank, database.space_blank]

theorem significant_eq_nil :
    significant database (database.lower query) = [] ↔ normalizedQuery database query = [] := by
  rw [← List.head?_eq_none_iff, ← List.head?_eq_none_iff, ends_normalizedQuery.1]

theorem framed_significant :
    Framed database.isSpace (significant database (database.lower query)) ↔
      Framed database.isSpace (normalizedQuery database query) := by
  rw [Framed, Framed, ends_normalizedQuery.1, ends_normalizedQuery.2]

theorem tsquerySql_none : tsquerySql database query = none ↔ significant database (database.lower query) = [] := by
  rw [significant_eq_nil, tsquerySql]
  by_cases empty : normalizedQuery database query = []
  · simp [empty]
  · simp [empty]

theorem tsqueryTerms_tsquerySql {built : List Char} (found : tsquerySql database query = some built)
    (terms : List (List Char)) :
    tsqueryTerms built = some terms ↔ Framed database.isSpace (significant database (database.lower query)) ∧
        terms = termsOf (blankStopwords database (database.lower query)) := by
  simp only [tsquerySql] at found
  split at found
  · cases found
  · cases found
    rw [tsqueryTerms_barred fun c member letter => normalizedQuery_plain member letter,
      framed_significant, words_normalizedQuery]

theorem mem_blanked_of_term (plain : isStopword term = false) :
    term ∈ termsOf (blankStopwords database text) ↔ term ∈ termsOf text := by
  rw [mem_termsOf_blankStopwords, @mem_termsOf database]
  refine exists_congr fun word => and_congr_right fun _ => ⟨And.right, fun member => ⟨?_, member⟩⟩
  by_contra whole
  have stopword : isStopword word = true := by simpa using whole
  rw [termsOf_stopword stopword, List.mem_singleton] at member
  rw [member, stopword] at plain
  cases plain

theorem framed_some (framed : Framed database.isSpace (significant database (database.lower query))) :
    ∃ term, term ∈ termsOf (blankStopwords database (database.lower query)) := by
  obtain ⟨⟨c, begins, letter⟩, _⟩ := framed_significant.mp framed
  obtain ⟨word, found⟩ := exists_word (List.mem_of_mem_head? begins) letter
  rw [words_normalizedQuery] at found
  exact ⟨word, found⟩

/-- The lists are absent together, well formed and of the same terms, if and only if they agree. -/
theorem sameQuery_iff :
    SameQuery (buildTsqueryString toLowerCase query) (tsquerySql database query) ↔
      Agrees toLowerCase database query := by
  -- Of the terms that SQL keeps, those that are no stop words are those of the text.
  have kept : ∀ term, isStopword term = false → (term ∈ termsOf (blankStopwords database (database.lower query)) ↔
        term ∈ termsOf (database.lower query)) := fun term plain => mem_blanked_of_term plain
  have apart_iff : (∀ term ∈ termsOf (blankStopwords database (database.lower query)), isStopword term = false) ↔
      ∀ word ∈ wordsOf database (database.lower query), isStopword word = false →
        ∀ term ∈ termsOf word, isStopword term = false := by
    constructor
    · intro all word inText whole term member
      exact all term (mem_termsOf_blankStopwords.mpr ⟨word, inText, whole, member⟩)
    · intro apart term member
      obtain ⟨word, inText, whole, inWord⟩ := mem_termsOf_blankStopwords.mp member
      exact apart word inText whole term inWord
  have inBuilt : ∀ term, term ∈ (termsOf (toLowerCase query)).filter (fun term => !isStopword term) ↔
      term ∈ termsOf (toLowerCase query) ∧ isStopword term = false := by
    intro term
    rw [List.mem_filter, Bool.not_eq_true']
  cases sql : tsquerySql database query with
  | none =>
    have blank := tsquerySql_none.mp sql
    have empty : ∀ term, term ∉ termsOf (blankStopwords database (database.lower query)) := by
      intro term member
      rw [significant_eq_nil] at blank
      rw [← words_normalizedQuery, blank, words_nil] at member
      cases member
    cases js : buildTsqueryString toLowerCase query with
    | none =>
      rw [buildTsqueryString_eq] at js
      split at js
      · rename_i none
        refine ⟨fun _ => ⟨?_, apart_iff.mp fun term member => absurd member (empty term), .inl blank⟩,
          fun _ => trivial⟩
        intro term plain
        rw [← kept term plain]
        refine ⟨fun member => ?_, fun member => absurd member (empty term)⟩
        have inNone := (inBuilt term).mpr ⟨member, plain⟩
        rw [none] at inNone
        cases inNone
      · cases js
    | some built =>
      refine ⟨fun same => same.elim, fun agrees => ?_⟩
      have terms := tsqueryTerms_buildTsqueryString js
      rw [buildTsqueryString_eq] at js
      split at js
      · cases js
      · rename_i some
        obtain ⟨term, member⟩ := List.exists_mem_of_ne_nil _ some
        obtain ⟨inText, plain⟩ := (inBuilt term).mp member
        exact empty term ((kept term plain).mpr ((agrees.lower term plain).mp inText))
  | some text =>
    have significantSome : significant database (database.lower query) ≠ [] := by
      intro blank
      rw [tsquerySql_none.mpr blank] at sql
      cases sql
    cases js : buildTsqueryString toLowerCase query with
    | none =>
      refine ⟨fun same => same.elim, fun agrees => ?_⟩
      rw [buildTsqueryString_eq] at js
      split at js
      · rename_i none
        obtain ⟨term, member⟩ := framed_some (agrees.framed.resolve_left significantSome)
        have plain := apart_iff.mpr agrees.apart term member
        have inNone := (inBuilt term).mpr ⟨(agrees.lower term plain).mpr ((kept term plain).mp member), plain⟩
        rw [none] at inNone
        cases inNone
      · cases js
    | some built =>
      have builtTerms := tsqueryTerms_buildTsqueryString js
      constructor
      · intro ⟨terms, others, isTerms, isOthers, same⟩
        rw [builtTerms] at isTerms
        cases isTerms
        obtain ⟨framed, found⟩ := (tsqueryTerms_tsquerySql sql others).mp isOthers
        subst found
        refine ⟨?_, apart_iff.mp ?_, .inr framed⟩
        · intro term plain
          rw [← kept term plain, ← same term, inBuilt]
          exact ⟨fun member => ⟨member, plain⟩, And.left⟩
        · intro term member
          exact ((inBuilt term).mp ((same term).mpr member)).2
      · intro agrees
        refine ⟨_, _, builtTerms, (tsqueryTerms_tsquerySql sql _).mpr
          ⟨agrees.framed.resolve_left significantSome, rfl⟩, ?_⟩
        intro term
        rw [inBuilt]
        constructor
        · intro ⟨member, plain⟩
          exact (kept term plain).mpr ((agrees.lower term plain).mp member)
        · intro member
          have plain := apart_iff.mpr agrees.apart term member
          exact ⟨(agrees.lower term plain).mpr ((kept term plain).mp member), plain⟩

/-- A database whose locale knows the letters of ASCII only. -/
def asciiDatabase : Database where
  lower text := text.map Char.toLower
  isWordChar c := c.isAlphanum || c == '_'
  isSpace c := [' ', '\t', '\n', '\x0b', '\x0c', '\r'].contains c
  wordChar_of_term c term := by
    simp only [isTermChar, Bool.or_eq_true] at term
    change ((c.isUpper || c.isLower) || c.isDigit || c == '_') = true
    simp only [Bool.or_eq_true]
    tauto
  term_of_space c space := by
    simp only [List.contains_eq_mem, List.mem_cons, List.not_mem_nil, or_false, decide_eq_true_eq] at space
    rcases space with rfl | rfl | rfl | rfl | rfl | rfl <;> rfl
  space_blank := rfl

/-- To the database `latest_report` is one word, and its stop word stays. -/
theorem latest_report_differs :
    buildTsqueryString asciiLowerCase.lower "latest_report".toList = some "report".toList ∧
    tsquerySql asciiDatabase "latest_report".toList = some "latest | report".toList ∧
    ¬ SameQuery (buildTsqueryString asciiLowerCase.lower "latest_report".toList)
      (tsquerySql asciiDatabase "latest_report".toList) := by
  have js : buildTsqueryString asciiLowerCase.lower "latest_report".toList = some "report".toList := by decide +kernel
  have sql : tsquerySql asciiDatabase "latest_report".toList = some "latest | report".toList := by
    decide +kernel
  have first : tsqueryTerms "report".toList = some ["report".toList] := by decide +kernel
  have second : tsqueryTerms "latest | report".toList = some ["latest".toList, "report".toList] := by
    decide +kernel
  refine ⟨js, sql, ?_⟩
  rw [js, sql]
  intro ⟨terms, others, isTerms, isOthers, same⟩
  rw [first] at isTerms
  rw [second] at isOthers
  cases isTerms
  cases isOthers
  have extra := (same "latest".toList).mpr List.mem_cons_self
  revert extra
  decide +kernel

end Lobu.Search
