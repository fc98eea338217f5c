import Lobu.Foundation.Text
import Mathlib.Data.List.Flatten

namespace Lobu.Foundation

/-! # Pieces in a row

A stream of pieces that is cut anywhere is some whole pieces and a part of the next.  Where the
pieces end in a doubled mark, a reader that keeps what comes after the last one finds them however
the stream comes in.
-/

universe u v

variable {α : Type u} {β : Type v}

theorem exists_of_prefix_flatMap {piece : α → List β} {items : List α} {front : List β}
    (cut : front <+: items.flatMap piece) :
    ∃ whole rest part, items = whole ++ rest ∧ front = whole.flatMap piece ++ part ∧
      (rest = [] → part = []) ∧ ∀ next ∈ rest.head?, part <+: piece next ∧ part ≠ piece next := by
  induction items generalizing front with
  | nil => exact ⟨[], [], [], rfl, List.prefix_nil.mp cut, fun _ => rfl, by simp⟩
  | cons item items ih =>
    rw [List.flatMap_cons] at cut
    by_cases complete : piece item <+: front
    · obtain ⟨more, rfl⟩ := complete
      obtain ⟨whole, rest, part, same, shape, ended, proper⟩ :=
        ih ((List.prefix_append_right_inj _).mp cut)
      refine ⟨item :: whole, rest, part, by rw [same, List.cons_append], ?_, ended, proper⟩
      rw [shape, List.flatMap_cons, List.append_assoc]
    · refine ⟨[], item :: items, front, rfl, by simp, by simp, ?_⟩
      intro next head
      cases head
      refine ⟨?_, fun same => complete (same ▸ List.prefix_refl _)⟩
      rcases List.prefix_or_prefix_of_prefix cut (List.prefix_append _ _) with shorter | longer
      · exact shorter
      · exact absurd longer complete

theorem prefix_dropLast {front whole : List α} (begins : front <+: whole) (shorter : front ≠ whole) :
    front <+: whole.dropLast := by
  obtain ⟨rest, rfl⟩ := begins
  have more : rest ≠ [] := by
    rintro rfl
    exact shorter (List.append_nil _).symm
  rw [List.dropLast_append_of_ne_nil more]
  exact List.prefix_append _ _

section Doubled

variable [DecidableEq α] {mark : α} {text more line : List α}

/-- `text.split(…)` at every doubled mark. -/
def splitDoubled (mark : α) : List α → List (List α)
  | [] => [[]]
  | [c] => [[c]]
  | c :: next :: rest =>
    if c = mark ∧ next = mark then [] :: splitDoubled mark rest
    else (splitDoubled mark (next :: rest)).modifyHead (c :: ·)

theorem splitDoubled_ne_nil (mark : α) (text : List α) : splitDoubled mark text ≠ [] := by
  fun_induction splitDoubled mark text with
  | case1 => simp
  | case2 => simp
  | case3 => simp
  | case4 c next rest _ ih =>
    obtain ⟨first, pieces, shape⟩ := List.exists_cons_of_ne_nil ih
    simp [shape]

theorem intercalate_splitDoubled (mark : α) (text : List α) :
    [mark, mark].intercalate (splitDoubled mark text) = text := by
  fun_induction splitDoubled mark text with
  | case1 => rfl
  | case2 c => rfl
  | case3 c next rest doubled ih =>
    obtain ⟨rfl, rfl⟩ := doubled
    rw [List.intercalate_cons_of_ne_nil (splitDoubled_ne_nil _ rest), ih]
    rfl
  | case4 c next rest _ ih =>
    obtain ⟨first, pieces, shape⟩ :=
      List.exists_cons_of_ne_nil (splitDoubled_ne_nil mark (next :: rest))
    rw [shape] at ih ⊢
    rw [List.modifyHead_cons]
    cases pieces with
    | nil =>
      rw [List.intercalate_singleton] at ih ⊢
      rw [ih]
    | cons second pieces =>
      rw [List.intercalate_cons_cons] at ih ⊢
      rw [List.cons_append, List.cons_append, ih]

theorem eq_of_splitDoubled {piece : List α} (one : splitDoubled mark text = [piece]) : text = piece := by
  have joined := intercalate_splitDoubled mark text
  rw [one, List.intercalate_singleton] at joined
  exact joined.symm

/-- What a reader keeps until more comes. -/
def unfinished (mark : α) (text : List α) : List α :=
  (splitDoubled mark text).getLast?.getD []

theorem splitDoubled_eq (mark : α) (text : List α) :
    splitDoubled mark text = (splitDoubled mark text).dropLast ++ [unfinished mark text] := by
  have nonempty := splitDoubled_ne_nil mark text
  rw [unfinished, List.getLast?_eq_some_getLast nonempty, Option.getD_some, List.dropLast_append_getLast]

/-- The pieces of a text that comes in two parts are those that end in the first part, and those
of what is left of it with the second. -/
theorem splitDoubled_append (mark : α) (text more : List α) :
    splitDoubled mark (text ++ more) =
      (splitDoubled mark text).dropLast ++ splitDoubled mark (unfinished mark text ++ more) := by
  fun_induction splitDoubled mark text with
  | case1 => simp [unfinished, splitDoubled]
  | case2 c => simp [unfinished, splitDoubled]
  | case3 c next rest doubled ih =>
    have kept : unfinished mark (c :: next :: rest) = unfinished mark rest := by
      rw [unfinished, splitDoubled, if_pos doubled,
        List.getLast?_cons_of_ne_nil (splitDoubled_ne_nil mark rest), unfinished]
    rw [kept, List.cons_append, List.cons_append, splitDoubled, if_pos doubled, ih,
      List.dropLast_cons_of_ne_nil (splitDoubled_ne_nil mark rest), List.cons_append]
  | case4 c next rest single ih =>
    obtain ⟨first, pieces, shape⟩ :=
      List.exists_cons_of_ne_nil (splitDoubled_ne_nil mark (next :: rest))
    have longer : splitDoubled mark (c :: next :: rest) = (c :: first) :: pieces := by
      rw [splitDoubled, if_neg single, shape, List.modifyHead_cons]
    have whole : splitDoubled mark (c :: next :: rest ++ more) =
        (splitDoubled mark (next :: rest ++ more)).modifyHead (c :: ·) := by
      rw [List.cons_append, List.cons_append, splitDoubled, if_neg single]
    cases pieces with
    | nil =>
      obtain rfl := eq_of_splitDoubled shape
      rw [unfinished, longer, shape]
      rfl
    | cons second pieces =>
      have kept : unfinished mark (c :: next :: rest) = unfinished mark (next :: rest) := by
        rw [unfinished, longer, unfinished, shape]
        rfl
      rw [shape] at ih
      rw [kept, whole, ih, shape]
      rfl

theorem unfinished_append (mark : α) (text more : List α) :
    unfinished mark (text ++ more) = unfinished mark (unfinished mark text ++ more) := by
  have last := List.getLast?_append_of_ne_nil (splitDoubled mark text).dropLast
    (splitDoubled_ne_nil mark (unfinished mark text ++ more))
  rw [unfinished, splitDoubled_append, last]
  rfl

theorem splitDoubled_line (line text : List α) (unmarked : mark ∉ line) :
    splitDoubled mark (line ++ text) = (splitDoubled mark text).modifyHead (line ++ ·) := by
  induction line with
  | nil =>
    obtain ⟨first, pieces, shape⟩ := List.exists_cons_of_ne_nil (splitDoubled_ne_nil mark text)
    simp [shape]
  | cons c line ih =>
    rw [List.mem_cons, not_or] at unmarked
    obtain ⟨first, pieces, shape⟩ := List.exists_cons_of_ne_nil (splitDoubled_ne_nil mark text)
    have rest := ih unmarked.2
    rw [shape, List.modifyHead_cons] at rest ⊢
    cases follows : line ++ text with
    | nil =>
      rw [follows] at rest
      obtain ⟨rfl, rfl⟩ : line = [] ∧ text = [] := List.append_eq_nil_iff.mp follows
      cases shape
      rfl
    | cons next tail =>
      rw [follows] at rest
      rw [List.cons_append, follows, splitDoubled, if_neg (fun doubled => unmarked.1 doubled.1.symm), rest]
      rfl

theorem splitDoubled_lines {first second : List α} (text : List α) (unmarked : mark ∉ first)
    (unmarkedToo : mark ∉ second) (nonempty : second ≠ []) :
    splitDoubled mark (first ++ mark :: second ++ mark :: mark :: text) =
      (first ++ mark :: second) :: splitDoubled mark text := by
  have ending : splitDoubled mark (second ++ mark :: mark :: text) = second :: splitDoubled mark text := by
    rw [splitDoubled_line _ _ unmarkedToo, splitDoubled, if_pos ⟨rfl, rfl⟩, List.modifyHead_cons, List.append_nil]
  obtain ⟨c, rest, rfl⟩ := List.exists_cons_of_ne_nil nonempty
  rw [List.mem_cons, not_or] at unmarkedToo
  rw [List.append_assoc, splitDoubled_line _ _ unmarked, List.cons_append, List.cons_append,
    splitDoubled, if_neg (fun doubled => unmarkedToo.1 doubled.2.symm), ← List.cons_append, ending]
  rfl

theorem splitDoubled_unfinished {piece front : List α}
    (whole : splitDoubled mark (piece ++ [mark, mark]) = [piece, []])
    (begins : front <+: piece ++ [mark, mark]) (shorter : front ≠ piece ++ [mark, mark]) :
    splitDoubled mark front = [front] := by
  obtain ⟨rest, same⟩ := begins
  rw [← same, splitDoubled_append] at whole
  have cut := splitDoubled_eq mark front
  cases done : (splitDoubled mark front).dropLast with
  | nil =>
    rw [done, List.nil_append] at cut
    rw [cut, ← eq_of_splitDoubled cut]
  | cons first pieces =>
    rw [done] at whole
    have lengths := congrArg List.length whole
    have least := List.length_pos_iff.mpr (splitDoubled_ne_nil mark (unfinished mark front ++ rest))
    simp only [List.length_append, List.length_cons, List.length_nil] at lengths
    obtain rfl : pieces = [] := List.length_eq_zero_iff.mp (by omega)
    rw [List.singleton_append, List.cons.injEq] at whole
    have nothing := eq_of_splitDoubled whole.2
    obtain ⟨_, rfl⟩ := List.append_eq_nil_iff.mp nothing
    exact absurd (by rw [← same, List.append_nil]) shorter

end Doubled

end Lobu.Foundation
