import Lobu.Reports.Reconcile

namespace Lobu.Reports

open Lobu.Foundation

/-! # Fingerprints of requests

The fingerprint tells apart any two requests that ask for different things.
-/

section Fingerprint

variable {runtime : Runtime} {first second : ReconcileSalesBattleReportScheduleInput}

def digitText (day : Fin 7) : List Char :=
  (toString day.val).toList

theorem digitText_cancel {day other : Fin 7} {rest others : List Char}
    (same : digitText day ++ rest = digitText other ++ others) : day = other ∧ rest = others := by
  have single : ∀ day : Fin 7, ∃ digit, digitText day = [digit] := by
    intro day
    exact ⟨Nat.digitChar day.val, by revert day; decide⟩
  have distinct : ∀ day other : Fin 7, digitText day = digitText other → day = other := by
    decide
  obtain ⟨digit, written⟩ := single day
  obtain ⟨otherDigit, otherWritten⟩ := single other
  rw [written, otherWritten] at same
  obtain ⟨digits, tails⟩ := List.cons.inj same
  exact ⟨distinct day other (by rw [written, otherWritten, digits]), tails⟩

theorem digitText_not_end (day : Fin 7) (rest others : List Char) : ']' :: rest ≠ digitText day ++ others := by
  intro same
  have head := congrArg List.head? same
  revert head
  have first : ∀ day : Fin 7, ∃ digit ≠ ']', digitText day = [digit] := by
    intro day
    exact ⟨Nat.digitChar day.val, by revert day; decide, by revert day; decide⟩
  obtain ⟨digit, apart, written⟩ := first day
  simp [written, apart.symm]

theorem days_cancel {days others : List (Fin 7)} {rest tail : List Char}
    (same : [','].intercalate (days.map digitText) ++ ']' :: rest =
      [','].intercalate (others.map digitText) ++ ']' :: tail) : days = others ∧ rest = tail := by
  induction days generalizing others with
  | nil =>
    cases others with
    | nil =>
      cases same
      exact ⟨rfl, rfl⟩
    | cons day others =>
      cases others with
      | nil => exact absurd same (by simpa using digitText_not_end day rest (']' :: tail))
      | cons next others =>
        refine absurd same ?_
        simpa using digitText_not_end day rest _
  | cons day days ih =>
    cases others with
    | nil =>
      cases days with
      | nil =>
        exact absurd same.symm (by simpa using digitText_not_end day tail (']' :: rest))
      | cons next days =>
        refine absurd same.symm ?_
        simpa using digitText_not_end day tail _
    | cons other others =>
      cases days with
      | nil =>
        cases others with
        | nil =>
          obtain ⟨rfl, tails⟩ := digitText_cancel (by simpa using same)
          exact ⟨rfl, (List.cons.inj tails).2⟩
        | cons next others =>
          simp only [List.map_cons, List.map_nil, List.intercalate_singleton,
            List.intercalate_cons_cons, List.append_assoc] at same
          have tails := (digitText_cancel same).2
          simp at tails
      | cons next days =>
        cases others with
        | nil =>
          simp only [List.map_cons, List.map_nil, List.intercalate_singleton,
            List.intercalate_cons_cons, List.append_assoc] at same
          have tails := (digitText_cancel same).2
          simp at tails
        | cons following others =>
          simp only [List.map_cons, List.intercalate_cons_cons, List.append_assoc] at same
          obtain ⟨rfl, tails⟩ := digitText_cancel same
          have shorter : [','].intercalate ((next :: days).map digitText) ++ ']' :: rest =
              [','].intercalate ((following :: others).map digitText) ++ ']' :: tail :=
            List.append_cancel_left tails
          obtain ⟨same, ends⟩ := ih shorter
          exact ⟨by rw [same], ends⟩

theorem stringify_days (runtime : Runtime) (days : List (Fin 7)) :
    (bracketed (stringifyItems runtime.numberText (days.map fun day =>
        .number (.finite day.val)))).toList =
      '[' :: ([','].intercalate (days.map digitText) ++ [']']) := by
  have items : stringifyItems runtime.numberText (days.map fun day =>
      .number (.finite day.val)) = days.map fun day => toString day.val := by
    induction days with
    | nil => rfl
    | cons day days ih =>
      simp only [List.map_cons, stringifyItems, stringify, scalarText, ih, runtime.numberText_digit]
  have texts : (days.map fun day => toString day.val).map String.toList = days.map digitText := by
    rw [List.map_map]
    rfl
  simp only [items, bracketed, String.toList_append, String.toList_intercalate, texts]
  rfl

theorem desiredState_text_injective {state other : SalesBattleReportDesiredState}
    (same : state.text = other.text) : state = other := by
  revert same
  cases state <;> cases other <;> decide

theorem acceptedRequestFingerprint_toList (runtime : Runtime) (input : ReconcileSalesBattleReportScheduleInput) :
    (acceptedRequestFingerprint runtime input).toList = '\x7b' :: ((quoted "createdByUser").toList ++ ':' ::
        ((quoted input.createdByUser).toList ++ ',' ::
        ((quoted "agentId").toList ++ ':' :: ((quoted input.agentId).toList ++ ',' ::
        ((quoted "courseName").toList ++ ':' :: ((quoted input.courseName).toList ++ ',' ::
        ((quoted "salesTalkWeekdays").toList ++ ':' ::
        '[' :: ([','].intercalate ((normalizedWeekdays input).map digitText) ++ ']' :: ',' ::
        ((quoted "desiredState").toList ++ ':' :: ((quoted input.desiredState.text).toList ++ ['\x7d'])))))))))) := by
  rw [acceptedRequestFingerprint, stringify]
  simp only [stringifyFields, braced, List.map_cons, List.map_nil, String.intercalate_cons_cons,
    String.intercalate_singleton, String.toList_append, stringify, scalarText, stringify_days,
    List.append_assoc, List.cons_append, List.nil_append]
  rfl

theorem acceptedRequestFingerprint_injective
    (same : acceptedRequestFingerprint runtime first = acceptedRequestFingerprint runtime second) :
    first.createdByUser = second.createdByUser ∧ first.agentId = second.agentId ∧
      first.courseName = second.courseName ∧ normalizedWeekdays first = normalizedWeekdays second ∧
      first.desiredState = second.desiredState := by
  have texts := congrArg String.toList same
  rw [acceptedRequestFingerprint_toList, acceptedRequestFingerprint_toList] at texts
  obtain ⟨_, texts⟩ := quoted_cancel (List.cons.inj texts).2
  obtain ⟨users, texts⟩ := quoted_cancel (List.cons.inj texts).2
  obtain ⟨_, texts⟩ := quoted_cancel (List.cons.inj texts).2
  obtain ⟨agents, texts⟩ := quoted_cancel (List.cons.inj texts).2
  obtain ⟨_, texts⟩ := quoted_cancel (List.cons.inj texts).2
  obtain ⟨courses, texts⟩ := quoted_cancel (List.cons.inj texts).2
  obtain ⟨_, texts⟩ := quoted_cancel (List.cons.inj texts).2
  obtain ⟨days, texts⟩ := days_cancel (List.cons.inj (List.cons.inj texts).2).2
  obtain ⟨_, texts⟩ := quoted_cancel (List.cons.inj texts).2
  obtain ⟨states, _⟩ := quoted_cancel (List.cons.inj texts).2
  exact ⟨users, agents, courses, days, desiredState_text_injective states⟩

end Fingerprint

end Lobu.Reports
