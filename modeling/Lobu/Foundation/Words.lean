import Mathlib.Data.List.Basic

namespace Lobu.Foundation

/-! # Words

The words of a text are what stands between its breaks.  Replacing each run of breaks by one mark
and taking a mark off either end joins the words.
-/

universe u

variable {α : Type u} {breaks keeps : α → Bool} {mark : α}

def words (breaks : α → Bool) (text : List α) : List (List α) :=
  (text.splitOnP breaks).filter fun piece => !piece.isEmpty

@[simp] theorem words_nil : words breaks [] = [] := by simp [words]

theorem words_append_break (text more : List α) {separator : α} (isBreak : breaks separator = true) :
    words breaks (text ++ separator :: more) = words breaks text ++ words breaks more := by
  rw [words, List.splitOnP_append_cons text more isBreak, List.filter_append]
  rfl

theorem words_cons_break (text : List α) {separator : α} (isBreak : breaks separator = true) :
    words breaks (separator :: text) = words breaks text := by
  simpa using words_append_break [] text isBreak

theorem words_breaks_append (text : List α) {blanks : List α} (isBreak : ∀ c ∈ blanks, breaks c = true) :
    words breaks (blanks ++ text) = words breaks text := by
  induction blanks with
  | nil => rfl
  | cons blank blanks ih =>
    rw [List.forall_mem_cons] at isBreak
    rw [List.cons_append, words_cons_break _ isBreak.1, ih isBreak.2]

theorem words_append_breaks (text : List α) {blanks : List α} (isBreak : ∀ c ∈ blanks, breaks c = true) :
    words breaks (text ++ blanks) = words breaks text := by
  cases blanks with
  | nil => rw [List.append_nil]
  | cons blank blanks =>
    rw [List.forall_mem_cons] at isBreak
    have none := words_breaks_append [] isBreak.2
    rw [List.append_nil, words_nil] at none
    rw [words_append_break text blanks isBreak.1, none, List.append_nil]

theorem words_word {word : List α} (nonempty : word ≠ []) (whole : ∀ c ∈ word, breaks c = false) :
    words breaks word = [word] := by
  rw [words, List.splitOnP_eq_singleton whole]
  simp [nonempty]

theorem splitOnP_filter (kept : ∀ c, breaks c = true → keeps c = true) (text : List α) :
    (text.filter keeps).splitOnP breaks = (text.splitOnP breaks).map (List.filter keeps) := by
  induction text with
  | nil => simp
  | cons first text ih =>
    obtain ⟨piece, pieces, cut⟩ := List.exists_cons_of_ne_nil (List.splitOnP_ne_nil breaks text)
    rw [cut] at ih
    by_cases isBreak : breaks first = true
    · rw [List.filter_cons_of_pos (kept first isBreak), List.splitOnP_cons_eq_if_modifyHead,
        if_pos isBreak, ih, List.splitOnP_cons_eq_if_modifyHead, if_pos isBreak, cut]
      rfl
    · rw [List.splitOnP_cons_eq_if_modifyHead, if_neg isBreak, cut]
      by_cases isKept : keeps first = true
      · rw [List.filter_cons_of_pos isKept, List.splitOnP_cons_eq_if_modifyHead, if_neg isBreak, ih]
        simp [isKept]
      · rw [List.filter_cons_of_neg isKept, ih]
        simp [isKept]

/-- The words that are left of words when only what `keeps` selects stays. -/
def keptOf (keeps : α → Bool) (pieces : List (List α)) : List (List α) :=
  (pieces.map (List.filter keeps)).filter fun piece => !piece.isEmpty

theorem words_filter (kept : ∀ c, breaks c = true → keeps c = true) (text : List α) :
    words breaks (text.filter keeps) = keptOf keeps (words breaks text) := by
  rw [words, splitOnP_filter kept, keptOf, words, List.filter_map, List.filter_map, List.filter_filter]
  congr 1
  apply List.filter_congr
  intro piece _
  cases piece with
  | nil => rfl
  | cons first piece => simp

section Joining

variable [DecidableEq α]

/-- Each run of what `runs` selects becomes one mark; `inside` is whether a run is going on. -/
def replaceRunsFrom (runs : α → Bool) (mark : α) : Bool → List α → List α
  | _, [] => []
  | inside, first :: text =>
    if runs first then
      if inside then replaceRunsFrom runs mark true text
      else mark :: replaceRunsFrom runs mark true text
    else first :: replaceRunsFrom runs mark false text

def replaceRuns (runs : α → Bool) (mark : α) (text : List α) : List α :=
  replaceRunsFrom runs mark false text

def stripStart (mark : α) : List α → List α
  | [] => []
  | first :: text => if first = mark then text else first :: text

def stripEnd (mark : α) : List α → List α
  | [] => []
  | [last] => if last = mark then [] else [last]
  | first :: second :: text => first :: stripEnd mark (second :: text)

/-- One mark off either end. -/
def stripEnds (mark : α) (text : List α) : List α := stripEnd mark (stripStart mark text)

theorem replaceRunsFrom_twice (runs : α → Bool) (mark : α) (text : List α) :
    (∀ inside, replaceRunsFrom (fun c => decide (c = mark)) mark inside (replaceRunsFrom runs mark false text) =
      replaceRunsFrom (fun c => runs c || decide (c = mark)) mark inside text) ∧
    replaceRunsFrom (fun c => decide (c = mark)) mark true (replaceRunsFrom runs mark true text) =
      replaceRunsFrom (fun c => runs c || decide (c = mark)) mark true text := by
  induction text with
  | nil => simp [replaceRunsFrom]
  | cons first text ih =>
    obtain ⟨outside, inside⟩ := ih
    by_cases inRun : runs first = true
    · constructor
      · intro begun
        cases begun <;> simp [replaceRunsFrom, inRun, inside]
      · simp [replaceRunsFrom, inRun, inside]
    · by_cases isMark : first = mark
      · subst isMark
        constructor
        · intro begun
          cases begun <;> simp [replaceRunsFrom, inRun, outside]
        · simp [replaceRunsFrom, inRun, outside]
      · simp [replaceRunsFrom, inRun, isMark, outside]

theorem replaceRuns_twice (runs : α → Bool) (mark : α) (text : List α) :
    replaceRuns (fun c => decide (c = mark)) mark (replaceRuns runs mark text) =
      replaceRuns (fun c => runs c || decide (c = mark)) mark text :=
  (replaceRunsFrom_twice runs mark text).1 false

theorem stripEnd_cons {first : α} (text : List α) (unlike : first ≠ mark) :
    stripEnd mark (first :: text) = first :: stripEnd mark text := by
  cases text with
  | nil => simp [stripEnd, unlike]
  | cons second text => rfl

theorem stripEnd_mark_cons (text : List α) : (stripEnd mark (mark :: text)).tail = stripEnd mark text := by
  cases text with
  | nil => simp [stripEnd]
  | cons second text => rfl

omit [DecidableEq α] in
theorem tail_flatMap_mark (pieces : List (List α)) :
    (pieces.flatMap (mark :: ·)).tail = [mark].intercalate pieces := by
  cases pieces with
  | nil => rfl
  | cons piece pieces =>
    rw [List.flatMap_cons, List.cons_append, List.tail_cons]
    induction pieces generalizing piece with
    | nil => simp
    | cons next pieces ih =>
      rw [List.flatMap_cons, List.cons_append, ih, List.intercalate_cons_cons, List.append_assoc]
      rfl

theorem stripEnd_replaceRunsFrom (marked : breaks mark = true) (text : List α) :
    stripEnd mark (replaceRunsFrom breaks mark false text) = (text.splitOnP breaks).headD [] ++
          ((text.splitOnP breaks).tail.filter fun piece => !piece.isEmpty).flatMap (mark :: ·) ∧
      stripEnd mark (mark :: replaceRunsFrom breaks mark true text) = (words breaks text).flatMap (mark :: ·) := by
  induction text with
  | nil => simp [replaceRunsFrom, stripEnd]
  | cons first text ih =>
    obtain ⟨inWord, inRun⟩ := ih
    by_cases isBreak : breaks first = true
    · constructor
      · simp only [replaceRunsFrom, isBreak, if_true, Bool.false_eq_true, if_false, inRun,
          List.splitOnP_cons_eq_if_modifyHead, List.headD_cons, List.tail_cons, List.nil_append]
        rfl
      · simp only [replaceRunsFrom, isBreak, if_true, inRun]
        rw [words_cons_break text isBreak]
    · have unlike : first ≠ mark := fun same => isBreak (same ▸ marked)
      obtain ⟨piece, pieces, cut⟩ := List.exists_cons_of_ne_nil (List.splitOnP_ne_nil breaks text)
      rw [cut, List.headD_cons, List.tail_cons] at inWord
      constructor
      · simp only [replaceRunsFrom, isBreak, Bool.false_eq_true, if_false]
        rw [stripEnd_cons _ unlike, inWord, List.splitOnP_cons_eq_if_modifyHead, if_neg isBreak, cut]
        rfl
      · simp only [replaceRunsFrom, isBreak, Bool.false_eq_true, if_false]
        rw [stripEnd, stripEnd_cons _ unlike, inWord, words, List.splitOnP_cons_eq_if_modifyHead, if_neg isBreak, cut]
        simp

theorem stripEnds_replaceRuns (marked : breaks mark = true) (text : List α) :
    stripEnds mark (replaceRuns breaks mark text) = [mark].intercalate (words breaks text) := by
  rw [← tail_flatMap_mark, ← (stripEnd_replaceRunsFrom marked text).2, stripEnd_mark_cons]
  cases text with
  | nil => rfl
  | cons first text =>
    by_cases isBreak : breaks first = true
    · simp [stripEnds, replaceRuns, replaceRunsFrom, isBreak, stripStart]
    · have unlike : first ≠ mark := fun same => isBreak (same ▸ marked)
      simp [stripEnds, replaceRuns, replaceRunsFrom, isBreak, stripStart, unlike]

end Joining

theorem mem_splitOnP {text piece : List α} (member : piece ∈ text.splitOnP breaks) :
    ∀ c ∈ piece, breaks c = false ∧ c ∈ text := by
  induction text generalizing piece with
  | nil =>
    rw [List.splitOnP_nil, List.mem_singleton] at member
    simp [member]
  | cons first text ih =>
    rw [List.splitOnP_cons_eq_if_modifyHead] at member
    intro c inPiece
    split at member
    · rw [List.mem_cons] at member
      rcases member with isEmpty | later
      · simp [isEmpty] at inPiece
      · exact ⟨(ih later c inPiece).1, List.mem_cons_of_mem _ (ih later c inPiece).2⟩
    · rename_i isBreak
      obtain ⟨head, pieces, cut⟩ := List.exists_cons_of_ne_nil (List.splitOnP_ne_nil breaks text)
      rw [cut] at ih member
      rw [List.modifyHead_cons, List.mem_cons] at member
      rcases member with isHead | later
      · rw [isHead, List.mem_cons] at inPiece
        rcases inPiece with isFirst | inHead
        · subst isFirst
          exact ⟨by simpa using isBreak, List.mem_cons_self⟩
        · have inText := ih List.mem_cons_self c inHead
          exact ⟨inText.1, List.mem_cons_of_mem _ inText.2⟩
      · have inText := ih (List.mem_cons_of_mem _ later) c inPiece
        exact ⟨inText.1, List.mem_cons_of_mem _ inText.2⟩

/-- Not empty, and without a break. -/
def IsWord (breaks : α → Bool) (word : List α) : Prop :=
  word ≠ [] ∧ ∀ c ∈ word, breaks c = false

theorem isWord_of_mem {text word : List α} (member : word ∈ words breaks text) : IsWord breaks word := by
  rw [words, List.mem_filter] at member
  exact ⟨by simpa using member.2, fun c inWord => (mem_splitOnP member.1 c inWord).1⟩

theorem words_intercalate {pieces : List (List α)} (marked : breaks mark = true)
    (whole : ∀ piece ∈ pieces, IsWord breaks piece) : words breaks ([mark].intercalate pieces) = pieces := by
  induction pieces with
  | nil => simp
  | cons piece pieces ih =>
    rw [List.forall_mem_cons] at whole
    cases pieces with
    | nil => rw [List.intercalate_singleton, words_word whole.1.1 whole.1.2]
    | cons next pieces =>
      rw [List.intercalate_cons_cons, List.append_assoc, List.singleton_append,
        words_append_break _ _ marked, words_word whole.1.1 whole.1.2, ih whole.2]
      rfl

/-- Words with one mark between any two. -/
def Joined (breaks : α → Bool) (mark : α) (text : List α) : Prop :=
  ∃ pieces : List (List α), (∀ piece ∈ pieces, IsWord breaks piece) ∧
    text = [mark].intercalate pieces

theorem Joined.intercalate_words {text : List α} (marked : breaks mark = true)
    (joined : Joined breaks mark text) : [mark].intercalate (words breaks text) = text := by
  obtain ⟨pieces, whole, isJoined⟩ := joined
  rw [isJoined, words_intercalate marked whole]

theorem Joined.append {text more : List α} (first : Joined breaks mark text)
    (second : Joined breaks mark more) : Joined breaks mark (text ++ more) := by
  obtain ⟨pieces, whole, isJoined⟩ := first
  obtain ⟨others, otherWhole, isOther⟩ := second
  cases others with
  | nil =>
    rw [isOther, List.intercalate_nil, List.append_nil]
    exact ⟨pieces, whole, isJoined⟩
  | cons other others =>
    rw [List.forall_mem_cons] at otherWhole
    subst isJoined
    induction pieces with
    | nil =>
      rw [List.intercalate_nil, List.nil_append]
      exact ⟨other :: others, List.forall_mem_cons.mpr otherWhole, isOther⟩
    | cons piece pieces ih =>
      rw [List.forall_mem_cons] at whole
      cases pieces with
      | nil =>
        refine ⟨(piece ++ other) :: others, ?_, ?_⟩
        · refine List.forall_mem_cons.mpr ⟨⟨by simp [whole.1.1], ?_⟩, otherWhole.2⟩
          intro c member
          rcases List.mem_append.mp member with inPiece | inOther
          · exact whole.1.2 c inPiece
          · exact otherWhole.1.2 c inOther
        · rw [isOther, List.intercalate_singleton]
          cases others with
          | nil => simp
          | cons next others => simp [List.intercalate_cons_cons]
      | cons next pieces =>
        obtain ⟨glued, gluedWhole, isGlued⟩ := ih whole.2
        have nonempty : glued ≠ [] := by
          intro none
          rw [none, List.intercalate_nil] at isGlued
          have nextEmpty : next = [] := by
            cases pieces <;> simp_all [List.intercalate_cons_cons]
          exact whole.2 next List.mem_cons_self |>.1 nextEmpty
        refine ⟨piece :: glued, List.forall_mem_cons.mpr ⟨whole.1, gluedWhole⟩, ?_⟩
        rw [List.intercalate_cons_cons, List.append_assoc, isGlued, List.intercalate_cons_of_ne_nil nonempty]

theorem Joined.flatten {texts : List (List α)} (joined : ∀ text ∈ texts, Joined breaks mark text) :
    Joined breaks mark texts.flatten := by
  induction texts with
  | nil => exact ⟨[], by simp, rfl⟩
  | cons text texts ih =>
    rw [List.forall_mem_cons] at joined
    rw [List.flatten_cons]
    exact joined.1.append (ih joined.2)

theorem mem_intercalate {separator : List α} {pieces : List (List α)} {c : α}
    (member : c ∈ separator.intercalate pieces) : c ∈ separator ∨ ∃ piece ∈ pieces, c ∈ piece := by
  induction pieces with
  | nil => simp at member
  | cons piece pieces ih =>
    cases pieces with
    | nil => exact .inr ⟨piece, List.mem_cons_self, by simpa using member⟩
    | cons next pieces =>
      rw [List.intercalate_cons_cons, List.mem_append, List.mem_append] at member
      rcases member with (inPiece | inSeparator) | later
      · exact .inr ⟨piece, List.mem_cons_self, inPiece⟩
      · exact .inl inSeparator
      · rcases ih later with inSeparator | inLater
        · exact .inl inSeparator
        · obtain ⟨other, member, inOther⟩ := inLater
          exact .inr ⟨other, List.mem_cons_of_mem _ member, inOther⟩

theorem intercalate_injective [DecidableEq α] {separator : List α} {first second : List (List α)}
    (asMany : first.length = second.length) (free : ∀ piece ∈ first, mark ∉ piece)
    (otherFree : ∀ piece ∈ second, mark ∉ piece)
    (same : (mark :: separator).intercalate first = (mark :: separator).intercalate second) : first = second := by
  induction first generalizing second with
  | nil => exact (List.length_eq_zero_iff.mp asMany.symm).symm
  | cons piece first ih =>
    cases second with
    | nil => simp at asMany
    | cons other second =>
      rw [List.forall_mem_cons] at free otherFree
      simp only [List.length_cons, Nat.add_right_cancel_iff] at asMany
      cases first with
      | nil =>
        cases second with
        | nil => simpa using same
        | cons next second => simp at asMany
      | cons next first =>
        cases second with
        | nil => simp at asMany
        | cons otherNext second =>
          simp only [List.intercalate_cons_cons, List.append_assoc, List.cons_append] at same
          have cut := congrArg (List.splitOn mark) same
          rw [List.splitOn_append_cons_self_of_not_mem free.1,
            List.splitOn_append_cons_self_of_not_mem otherFree.1, List.cons.injEq] at cut
          rw [cut.1, List.append_right_inj, List.cons.injEq, List.append_right_inj] at same
          rw [cut.1, ih asMany free.2 otherFree.2 same.2]

end Lobu.Foundation
