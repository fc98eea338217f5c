import Lobu.Foundation.Words
import Mathlib.Data.List.DropRight

namespace Lobu.Foundation

/-! # Runs

A run of a text is a longest part whose characters are all of one kind.  Runs are changed one by
one, as a global replacement of a pattern with a plus does.
-/

universe u

variable {α : Type u} {runs inner : α → Bool} {change : List α → List α}

def changedRun (change : List α → List α) (run : List α) : List α :=
  if run.isEmpty then [] else change run

/-- `run` is the part of the present run that is behind. -/
def mapRunsFrom (runs : α → Bool) (change : List α → List α) : List α → List α → List α
  | run, [] => changedRun change run
  | run, c :: text =>
    if runs c then mapRunsFrom runs change (run ++ [c]) text
    else changedRun change run ++ c :: mapRunsFrom runs change [] text

def mapRuns (runs : α → Bool) (change : List α → List α) (text : List α) : List α :=
  mapRunsFrom runs change [] text

theorem break_induction (runs : α → Bool) {property : List α → Prop}
    (last : ∀ word, (∀ c ∈ word, runs c = true) → property word)
    (more : ∀ word separator rest, (∀ c ∈ word, runs c = true) → runs separator = false →
      property rest → property (word ++ separator :: rest)) (text : List α) : property text := by
  have split : ∀ word, (∀ c ∈ word, runs c = true) → property (word ++ text) := by
    induction text with
    | nil =>
      intro word whole
      rw [List.append_nil]
      exact last word whole
    | cons c text ih =>
      intro word whole
      cases kind : runs c with
      | true =>
        have longer := ih (word ++ [c]) fun other member => by
          rcases List.mem_append.mp member with inWord | isLast
          · exact whole other inWord
          · rw [List.mem_singleton.mp isLast, kind]
        rwa [List.append_assoc] at longer
      | false => exact more word c text whole kind (ih [] (by simp))
  exact split [] (by simp)

theorem gap_induction (runs : α → Bool) {property : List α → Prop}
    (last : ∀ word, (∀ c ∈ word, runs c = false) → property word)
    (more : ∀ word gap rest, (∀ c ∈ word, runs c = false) → gap ≠ [] → (∀ c ∈ gap, runs c = true) →
      (∀ c ∈ rest.head?, runs c = false) → property rest → property (word ++ (gap ++ rest)))
    (text : List α) : property text := by
  induction size : text.length using Nat.strongRecOn generalizing text with
  | ind size ih =>
    have splitWord := List.takeWhile_append_dropWhile (p := fun c => !runs c) (l := text)
    have wordWhole : ∀ c ∈ text.takeWhile (fun c => !runs c), runs c = false := by
      intro c member
      simpa using List.mem_takeWhile_imp member
    cases found : text.dropWhile (fun c => !runs c) with
    | nil =>
      rw [found, List.append_nil] at splitWord
      rw [← splitWord]
      exact last _ wordWhole
    | cons first later =>
      have begins : runs first = true := by
        have head := List.head?_dropWhile_not (fun c => !runs c) text
        rw [found] at head
        simpa using head
      have splitGap := List.takeWhile_append_dropWhile (p := runs) (l := first :: later)
      have gapWhole : ∀ c ∈ (first :: later).takeWhile runs, runs c = true :=
        fun c member => List.mem_takeWhile_imp member
      have gapSome : (first :: later).takeWhile runs ≠ [] := by
        rw [List.takeWhile_cons_of_pos begins]
        exact List.cons_ne_nil _ _
      have restHead : ∀ c ∈ ((first :: later).dropWhile runs).head?, runs c = false := by
        have head := List.head?_dropWhile_not runs (first :: later)
        intro c member
        rw [member] at head
        simpa using head
      rw [found, ← splitGap] at splitWord
      rw [← splitWord]
      refine more _ _ _ wordWhole gapSome gapWhole restHead (ih _ ?_ _ rfl)
      have lengths := congrArg List.length splitWord
      rw [List.length_append, List.length_append] at lengths
      have positive := List.length_pos_of_ne_nil gapSome
      omega

theorem mapRunsFrom_word (run : List α) {word text : List α} (whole : ∀ c ∈ word, runs c = true) :
    mapRunsFrom runs change run (word ++ text) = mapRunsFrom runs change (run ++ word) text := by
  induction word generalizing run with
  | nil => rw [List.nil_append, List.append_nil]
  | cons c word ih =>
    rw [List.forall_mem_cons] at whole
    rw [List.cons_append, mapRunsFrom, if_pos whole.1, ih _ whole.2, List.append_assoc]
    rfl

theorem mapRuns_word {word : List α} (whole : ∀ c ∈ word, runs c = true) :
    mapRuns runs change word = changedRun change word := by
  have moved : mapRunsFrom runs change [] (word ++ []) = _ := mapRunsFrom_word [] whole
  rwa [List.append_nil] at moved

theorem mapRuns_break {separator : α} {word text : List α}
    (whole : ∀ c ∈ word, runs c = true) (isBreak : runs separator = false) :
    mapRuns runs change (word ++ separator :: text) =
      changedRun change word ++ separator :: mapRuns runs change text := by
  rw [mapRuns, mapRunsFrom_word [] whole, List.nil_append, mapRunsFrom, if_neg (by simp [isBreak]), mapRuns]

theorem mapRuns_gap {word gap rest : List α} (whole : ∀ c ∈ word, runs c = false)
    (wide : ∀ c ∈ gap, runs c = true) (ended : ∀ c ∈ rest.head?, runs c = false) :
    mapRuns runs change (word ++ (gap ++ rest)) = word ++ (changedRun change gap ++ mapRuns runs change rest) := by
  induction word with
  | nil =>
    rw [List.nil_append, List.nil_append, mapRuns, mapRunsFrom_word [] wide, List.nil_append]
    cases rest with
    | nil =>
      rw [mapRunsFrom, mapRuns, mapRunsFrom, changedRun, changedRun]
      simp
    | cons c rest =>
      have isBreak := ended c rfl
      rw [mapRunsFrom, if_neg (by simp [isBreak]), mapRuns, mapRunsFrom, if_neg (by simp [isBreak])]
      rfl
  | cons c word ih =>
    rw [List.forall_mem_cons] at whole
    rw [List.cons_append, mapRuns, mapRunsFrom, if_neg (by simp [whole.1])]
    exact congrArg (c :: ·) (ih whole.2)

theorem mapRuns_none {word : List α} (whole : ∀ c ∈ word, runs c = false) : mapRuns runs change word = word := by
  have plain : mapRuns runs change (word ++ ([] ++ [])) = _ :=
    mapRuns_gap whole (by simp) (by simp)
  simpa [changedRun, mapRuns, mapRunsFrom] using plain

theorem words_congr {breaks others : α → Bool} {text : List α}
    (same : ∀ c ∈ text, breaks c = others c) : words breaks text = words others text := by
  have split : text.splitOnP breaks = text.splitOnP others := by
    induction text with
    | nil => rfl
    | cons c text ih =>
      rw [List.forall_mem_cons] at same
      rw [List.splitOnP_cons_eq_if_modifyHead, List.splitOnP_cons_eq_if_modifyHead, same.1, ih same.2]
  rw [words, words, split]

theorem exists_word {breaks : α → Bool} {text : List α} {c : α} (member : c ∈ text)
    (letter : breaks c = false) : ∃ word, word ∈ words breaks text := by
  have found : words breaks text ≠ [] := by
    induction text using break_induction fun c => !breaks c with
    | last word whole =>
      rw [words_word (List.ne_nil_of_mem member) (by simpa using whole)]
      exact List.cons_ne_nil _ _
    | more word separator rest whole isBreak ih =>
      rw [words_append_break _ _ (by simpa using isBreak)]
      rcases List.mem_append.mp member with inWord | later
      · rw [words_word (List.ne_nil_of_mem inWord) (by simpa using whole)]
        exact List.append_ne_nil_of_left_ne_nil (List.cons_ne_nil _ _) _
      · rcases List.mem_cons.mp later with rfl | inRest
        · rw [letter] at isBreak
          cases isBreak
        · exact List.append_ne_nil_of_right_ne_nil _ (ih inRest)
  obtain ⟨word, inText⟩ := List.exists_mem_of_ne_nil _ found
  exact ⟨word, inText⟩

theorem words_mapRuns (finer : ∀ c, runs c = false → inner c = true) (text : List α) :
    words inner (mapRuns runs change text) =
      (words (fun c => !runs c) text).flatMap fun word => words inner (change word) := by
  have one : ∀ word, (∀ c ∈ word, runs c = true) → words inner (changedRun change word) =
      (words (fun c => !runs c) word).flatMap fun word => words inner (change word) := by
    intro word whole
    rw [changedRun]
    cases word with
    | nil => simp
    | cons c word =>
      rw [words_word (List.cons_ne_nil _ _) (fun other member => by rw [whole other member]; rfl)]
      simp
  induction text using break_induction runs with
  | last word whole => rw [mapRuns_word whole, one word whole]
  | more word separator rest whole isBreak ih =>
    rw [mapRuns_break whole isBreak, words_append_break _ _ (finer separator isBreak), ih,
      words_append_break _ _ (by rw [isBreak]; rfl), List.flatMap_append, one word whole]

theorem mapRuns_id (text : List α) : mapRuns runs (fun run => run) text = text := by
  induction text using break_induction runs with
  | last word whole =>
    rw [mapRuns_word whole, changedRun]
    cases word <;> rfl
  | more word separator rest whole isBreak ih =>
    rw [mapRuns_break whole isBreak, ih, changedRun]
    cases word <;> rfl

theorem words_words (finer : ∀ c, runs c = false → inner c = true) (text : List α) :
    words inner text = (words (fun c => !runs c) text).flatMap (words inner) := by
  have changed : words inner (mapRuns runs (fun run => run) text) = _ := words_mapRuns finer text
  rwa [mapRuns_id] at changed

section Marks

variable {mark : α} {breaks : α → Bool}

theorem replaceRunsFrom_kept (inside : Bool) {word text : List α}
    (whole : ∀ c ∈ word, runs c = false) (some : word ≠ []) :
    replaceRunsFrom runs mark inside (word ++ text) = word ++ replaceRunsFrom runs mark false text := by
  induction word generalizing inside with
  | nil => exact absurd rfl some
  | cons c word ih =>
    rw [List.forall_mem_cons] at whole
    rw [List.cons_append, replaceRunsFrom, if_neg (by simp [whole.1]), List.cons_append]
    congr 1
    cases word with
    | nil => rfl
    | cons next word => exact ih false whole.2 (List.cons_ne_nil _ _)

/-- The words between breaks and marks of a text whose runs are marked are those between breaks and
runs. -/
theorem words_replaceRuns (marked : breaks mark = true) (text : List α) :
    words breaks (replaceRuns runs mark text) = words (fun c => breaks c || runs c) text := by
  have both : ∀ inside, words breaks (replaceRunsFrom runs mark inside text) =
      words (fun c => breaks c || runs c) text := by
    induction text using break_induction fun c => !runs c with
    | last word whole =>
      intro inside
      have plain : ∀ c ∈ word, runs c = false := by simpa using whole
      have same : replaceRunsFrom runs mark inside word = word := by
        cases word with
        | nil => rfl
        | cons c word =>
          have kept : replaceRunsFrom runs mark inside ((c :: word) ++ []) = _ :=
            replaceRunsFrom_kept inside plain (List.cons_ne_nil _ _)
          simpa [replaceRunsFrom] using kept
      rw [same]
      exact words_congr fun c member => by simp [plain c member]
    | more word separator rest whole inRun ih =>
      intro inside
      have plain : ∀ c ∈ word, runs c = false := by simpa using whole
      have begins : runs separator = true := by simpa using inRun
      have tail : words breaks (replaceRunsFrom runs mark false (separator :: rest)) =
          words (fun c => breaks c || runs c) rest := by
        rw [replaceRunsFrom, if_pos begins, if_neg (by simp), words_cons_break _ marked, ih true]
      have same : words breaks word = words (fun c => breaks c || runs c) word :=
        words_congr fun c member => by simp [plain c member]
      rw [words_append_break _ _ (by simp [begins]), ← ih true, ← same]
      cases word with
      | nil =>
        rw [List.nil_append, words_nil, List.nil_append, replaceRunsFrom, if_pos begins]
        cases inside with
        | true => rfl
        | false => rw [if_neg (by simp), words_cons_break _ marked]
      | cons c word =>
        rw [replaceRunsFrom_kept inside plain (List.cons_ne_nil _ _), replaceRunsFrom,
          if_pos begins, if_neg (by simp), words_append_break _ _ marked]
  exact both false

theorem filter_replaceRunsFrom [DecidableEq α] (inside : Bool) (text : List α) :
    (replaceRunsFrom runs mark inside text).filter (fun c => !decide (c = mark)) =
      text.filter fun c => !runs c && !decide (c = mark) := by
  induction text generalizing inside with
  | nil => rfl
  | cons c text ih =>
    cases kind : runs c with
    | true =>
      rw [replaceRunsFrom, if_pos kind, List.filter_cons_of_neg (by simp [kind])]
      cases inside with
      | true => exact ih true
      | false =>
        rw [if_neg (by simp), List.filter_cons_of_neg (by simp)]
        exact ih true
    | false =>
      rw [replaceRunsFrom, if_neg (by simp [kind])]
      by_cases isMark : c = mark
      · rw [List.filter_cons_of_neg (by simp [isMark]), List.filter_cons_of_neg (by simp [isMark])]
        exact ih false
      · rw [List.filter_cons_of_pos (by simp [isMark]), List.filter_cons_of_pos (by simp [isMark, kind]), ih false]

end Marks

/-- The text has a first and a last character, and neither is a break. -/
def Framed (breaks : α → Bool) (text : List α) : Prop :=
  (∃ c, text.head? = some c ∧ breaks c = false) ∧ ∃ c, text.getLast? = some c ∧ breaks c = false

theorem framed_word {word : List α} (whole : ∀ c ∈ word, runs c = false) : Framed runs word ↔ word ≠ [] := by
  constructor
  · intro ⟨⟨c, first, _⟩, _⟩ empty
    rw [empty] at first
    cases first
  · intro nonempty
    exact ⟨⟨word.head nonempty, List.head?_eq_some_head nonempty, whole _ (List.head_mem nonempty)⟩,
      ⟨word.getLast nonempty, List.getLast?_eq_some_getLast nonempty,
        whole _ (List.getLast_mem nonempty)⟩⟩

theorem framed_gap {word gap rest : List α} (whole : ∀ c ∈ word, runs c = false) (some : gap ≠ [])
    (wide : ∀ c ∈ gap, runs c = true) (ended : ∀ c ∈ rest.head?, runs c = false) :
    Framed runs (word ++ (gap ++ rest)) ↔ word ≠ [] ∧ Framed runs rest := by
  have lastGap : ∃ c, gap.getLast? = Option.some c ∧ runs c = true :=
    ⟨gap.getLast some, List.getLast?_eq_some_getLast some, wide _ (List.getLast_mem some)⟩
  have firstGap : ∃ c, gap.head? = Option.some c ∧ runs c = true :=
    ⟨gap.head some, List.head?_eq_some_head some, wide _ (List.head_mem some)⟩
  obtain ⟨last, isLast, lastWide⟩ := lastGap
  obtain ⟨first, isFirst, firstWide⟩ := firstGap
  constructor
  · intro ⟨⟨c, begins, inWord⟩, ⟨d, ends, inRest⟩⟩
    have nonempty : word ≠ [] := by
      intro empty
      rw [empty, List.nil_append, List.head?_append, isFirst, Option.some_or] at begins
      cases begins
      rw [firstWide] at inWord
      cases inWord
    refine ⟨nonempty, ?_⟩
    cases rest with
    | nil =>
      rw [List.append_nil, List.getLast?_append, isLast, Option.some_or] at ends
      cases ends
      rw [lastWide] at inRest
      cases inRest
    | cons next rest =>
      refine ⟨⟨next, rfl, ended next rfl⟩, ⟨d, ?_, inRest⟩⟩
      rw [← ends, List.getLast?_append, List.getLast?_append,
        List.getLast?_eq_some_getLast (List.cons_ne_nil next rest), Option.some_or, Option.some_or]
  · intro ⟨nonempty, ⟨_, ⟨d, ends, inRest⟩⟩⟩
    refine ⟨⟨word.head nonempty, ?_, whole _ (List.head_mem nonempty)⟩, ⟨d, ?_, inRest⟩⟩
    · rw [List.head?_append, List.head?_eq_some_head nonempty, Option.some_or]
    · rw [List.getLast?_append, List.getLast?_append, ends, Option.some_or, Option.some_or]

theorem filter_dropWhile (drops : α → Bool) (text : List α) :
    (text.dropWhile drops).filter (fun c => !drops c) = text.filter fun c => !drops c := by
  induction text with
  | nil => rfl
  | cons c text ih =>
    cases dropped : drops c with
    | true =>
      rw [List.dropWhile_cons_of_pos dropped, ih, List.filter_cons_of_neg (by simp [dropped])]
    | false => rw [List.dropWhile_cons_of_neg (by simp [dropped])]

theorem head?_dropWhile (drops : α → Bool) (text : List α) :
    (text.dropWhile drops).head? = (text.filter fun c => !drops c).head? := by
  induction text with
  | nil => rfl
  | cons c text ih =>
    cases dropped : drops c with
    | true =>
      rw [List.dropWhile_cons_of_pos dropped, ih, List.filter_cons_of_neg (by simp [dropped])]
    | false =>
      rw [List.dropWhile_cons_of_neg (by simp [dropped]), List.filter_cons_of_pos (by simp [dropped])]
      rfl

theorem getLast?_rdropWhile (drops : α → Bool) (text : List α) :
    (text.rdropWhile drops).getLast? = (text.filter fun c => !drops c).getLast? := by
  rw [List.rdropWhile, List.getLast?_reverse, head?_dropWhile, List.filter_reverse, List.head?_reverse]

theorem ends_trimmed (drops : α → Bool) (text : List α) :
    ((text.dropWhile drops).rdropWhile drops).head? = (text.filter fun c => !drops c).head? ∧
      ((text.dropWhile drops).rdropWhile drops).getLast? = (text.filter fun c => !drops c).getLast? := by
  constructor
  · rw [← head?_dropWhile]
    cases begun : text.dropWhile drops with
    | nil => rfl
    | cons c rest =>
      have first : drops c = false := by
        have head := List.head?_dropWhile_not drops text
        rw [begun] at head
        simpa using head
      obtain ⟨dropped, whole⟩ := List.rdropWhile_prefix drops (l := c :: rest)
      cases kept : (c :: rest).rdropWhile drops with
      | nil =>
        rw [List.rdropWhile_eq_nil_iff] at kept
        rw [kept c List.mem_cons_self] at first
        cases first
      | cons d others =>
        rw [kept, List.cons_append] at whole
        cases whole
        rfl
  · rw [getLast?_rdropWhile, filter_dropWhile]

theorem words_trimmed {breaks drops : α → Bool} (blank : ∀ c, drops c = true → breaks c = true) (text : List α) :
    words breaks ((text.dropWhile drops).rdropWhile drops) = words breaks text := by
  have start := List.takeWhile_append_dropWhile (p := drops) (l := text)
  have finish : (text.dropWhile drops).rdropWhile drops ++ (text.dropWhile drops).rtakeWhile drops =
      text.dropWhile drops := List.rdropWhile_append_rtakeWhile
  have started : words breaks text = words breaks (text.dropWhile drops) := by
    conv_lhs => rw [← start]
    exact words_breaks_append _ fun c member => blank c (List.mem_takeWhile_imp member)
  rw [started]
  conv_rhs => rw [← finish]
  exact (words_append_breaks _ fun c member => blank c (List.mem_rtakeWhile_imp member)).symm

theorem mem_replaceRunsFrom {mark c : α} {inside : Bool} {text : List α}
    (member : c ∈ replaceRunsFrom runs mark inside text) : c = mark ∨ c ∈ text ∧ runs c = false := by
  induction text generalizing inside with
  | nil => cases member
  | cons first text ih =>
    simp only [replaceRunsFrom] at member
    split at member
    · split at member
      · exact (ih member).imp id fun kept => ⟨List.mem_cons_of_mem _ kept.1, kept.2⟩
      · rcases List.mem_cons.mp member with isMark | later
        · exact .inl isMark
        · exact (ih later).imp id fun kept => ⟨List.mem_cons_of_mem _ kept.1, kept.2⟩
    · rename_i single
      rcases List.mem_cons.mp member with rfl | later
      · exact .inr ⟨List.mem_cons_self, by simpa using single⟩
      · exact (ih later).imp id fun kept => ⟨List.mem_cons_of_mem _ kept.1, kept.2⟩

end Lobu.Foundation
