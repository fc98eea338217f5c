import Mathlib.Tactic.Linarith
import Mathlib.Tactic.Positivity

namespace Lobu.Foundation

/-! # Sliding windows

Calls are counted in windows of one size that begin at its multiples.  A call is judged by an
estimate: the calls of its own window so far, itself among them, and of those of the window before
it the share that is left of the present one.
-/

/-- A call, the second in which it was made and whether it was let through. -/
structure Call where
  second : Nat
  allowed : Bool

namespace Call

variable {size start finish second window : Nat} {limit : ℚ} {call : Call} {calls earlier : List Call}

/-- The calls of a window, let through or not. -/
def made (size window : Nat) (calls : List Call) : Nat :=
  calls.countP fun call => decide (call.second / size = window)

/-- The calls of the window before. -/
def madeBefore (size window : Nat) (calls : List Call) : Nat :=
  calls.countP fun call => decide (call.second / size + 1 = window)

/-- The calls let through from one second on and before another. -/
def admitted (start finish : Nat) (calls : List Call) : Nat :=
  calls.countP fun call => call.allowed && decide (start ≤ call.second ∧ call.second < finish)

def estimate (size second : Nat) (earlier : List Call) : ℚ :=
  madeBefore size (second / size) earlier * (((size - second % size : Nat) : ℚ) / size) +
    (made size (second / size) earlier + 1)

/-- The calls, the latest first, are in the order of their seconds, and each was let through just
when the estimate was within the limit. -/
def Judged (size : Nat) (limit : ℚ) : List Call → Prop
  | [] => True
  | call :: earlier =>
    (∀ before ∈ earlier, before.second ≤ call.second) ∧
    (call.allowed = true ↔ estimate size call.second earlier ≤ limit) ∧ Judged size limit earlier

theorem Judged.of_append {later : List Call} (judged : Judged size limit (later ++ calls)) :
    Judged size limit calls := by
  induction later with
  | nil => exact judged
  | cons call later ih => exact ih judged.2.2

theorem made_cons : made size window (call :: earlier) =
    made size window earlier + if call.second / size = window then 1 else 0 := by
  rw [made, List.countP_cons]
  simp [made]

theorem madeBefore_cons : madeBefore size window (call :: earlier) =
    madeBefore size window earlier + if call.second / size + 1 = window then 1 else 0 := by
  rw [madeBefore, List.countP_cons]
  simp [madeBefore]

theorem admitted_cons_of_pos (through : call.allowed = true) (started : start ≤ call.second)
    (unfinished : call.second < finish) :
    admitted start finish (call :: earlier) = admitted start finish earlier + 1 := by
  rw [admitted, List.countP_cons_of_pos (by simp [through, started, unfinished]), admitted]

theorem admitted_cons_of_neg (outside : ¬ (call.allowed = true ∧ start ≤ call.second ∧ call.second < finish)) :
    admitted start finish (call :: earlier) = admitted start finish earlier := by
  rw [admitted, List.countP_cons_of_neg (by simpa using outside), admitted]

theorem admitted_split (early : start ≤ second) (late : second ≤ finish) :
    admitted start finish calls = admitted start second calls + admitted second finish calls := by
  induction calls with
  | nil => rfl
  | cons call calls ih =>
    simp only [admitted, List.countP_cons] at ih ⊢
    rw [ih]
    cases call.allowed with
    | false => simp
    | true =>
      simp only [Bool.true_and, decide_eq_true_eq]
      split <;> split <;> split <;> omega

theorem admitted_mono {sooner later : Nat} (wider : ∀ call ∈ calls, start ≤ call.second →
    call.second < finish → sooner ≤ call.second ∧ call.second < later) :
    admitted start finish calls ≤ admitted sooner later calls := by
  refine List.countP_mono_left fun call member counted => ?_
  simp only [Bool.and_eq_true, decide_eq_true_eq] at counted ⊢
  exact ⟨counted.1, wider call member counted.2.1 counted.2.2⟩

theorem div_eq_iff_within (positive : 0 < size) :
    second / size = window ↔ size * window ≤ second ∧ second < size * window + size := by
  constructor
  · intro same
    rw [← same]
    exact ⟨Nat.mul_div_le second size, Nat.lt_mul_div_succ second positive⟩
  · intro ⟨started, unfinished⟩
    exact Nat.div_eq_of_lt_le (by rwa [Nat.mul_comm]) (by rwa [Nat.succ_mul, Nat.mul_comm window])

theorem admitted_le_made (inside : ∀ call ∈ calls, start ≤ call.second → call.second < finish →
    call.second / size = window) : admitted start finish calls ≤ made size window calls := by
  refine List.countP_mono_left fun call member counted => ?_
  simp only [Bool.and_eq_true, decide_eq_true_eq] at counted ⊢
  exact inside call member counted.2.1 counted.2.2

theorem admitted_le_madeBefore (inside : ∀ call ∈ calls, start ≤ call.second →
    call.second < finish → call.second / size + 1 = window) :
    admitted start finish calls ≤ madeBefore size window calls := by
  refine List.countP_mono_left fun call member counted => ?_
  simp only [Bool.and_eq_true, decide_eq_true_eq] at counted ⊢
  exact inside call member counted.2.1 counted.2.2

theorem share_nonneg : (0 : ℚ) ≤ ((size - second % size : Nat) : ℚ) / size := by positivity

theorem share_pos (positive : 0 < size) : (0 : ℚ) < ((size - second % size : Nat) : ℚ) / size := by
  have rest : 0 < size - second % size := Nat.sub_pos_of_lt (Nat.mod_lt second positive)
  positivity

theorem share_le_one : ((size - second % size : Nat) : ℚ) / size ≤ 1 := by
  refine div_le_one_of_le₀ ?_ (Nat.cast_nonneg size)
  exact_mod_cast Nat.sub_le size (second % size)

theorem made_le_estimate : (made size (second / size) earlier + 1 : ℚ) ≤ estimate size second earlier := by
  have share : (0 : ℚ) ≤ _ := @share_nonneg size second
  rw [estimate]
  have weighed : (0 : ℚ) ≤ madeBefore size (second / size) earlier *
      (((size - second % size : Nat) : ℚ) / size) := by positivity
  linarith

theorem made_lt_estimate (positive : 0 < size) (crowded : 0 < madeBefore size (second / size) earlier) :
    (made size (second / size) earlier + 1 : ℚ) < estimate size second earlier := by
  have share := @share_pos size second positive
  have before : (0 : ℚ) < madeBefore size (second / size) earlier := by exact_mod_cast crowded
  rw [estimate]
  have weighed := mul_pos before share
  linarith

theorem estimate_le : estimate size second earlier ≤
    madeBefore size (second / size) earlier + (made size (second / size) earlier + 1) := by
  have share := @share_le_one size second
  have before : (0 : ℚ) ≤ madeBefore size (second / size) earlier := Nat.cast_nonneg _
  rw [estimate]
  have weighed := mul_le_mul_of_nonneg_left share before
  linarith

theorem admitted_aligned (positive : 0 < size) (nonneg : 0 ≤ limit)
    (judged : Judged size limit calls) (window : Nat) :
    (admitted (size * window) (size * window + size) calls : ℚ) ≤ limit := by
  induction calls with
  | nil => simpa [admitted] using nonneg
  | cons call earlier ih =>
    obtain ⟨_, verdict, judged⟩ := judged
    by_cases counted : call.allowed = true ∧ size * window ≤ call.second ∧ call.second < size * window + size
    · obtain ⟨through, started, unfinished⟩ := counted
      have own : call.second / size = window :=
        (div_eq_iff_within positive).mpr ⟨started, unfinished⟩
      have few : admitted (size * window) (size * window + size) earlier ≤ made size window earlier :=
        admitted_le_made fun _ _ begun ended => (div_eq_iff_within positive).mpr ⟨begun, ended⟩
      have within := made_le_estimate.trans (verdict.mp through)
      rw [own] at within
      rw [admitted_cons_of_pos through started unfinished]
      push_cast
      have few : (admitted (size * window) (size * window + size) earlier : ℚ) ≤
          made size window earlier := by exact_mod_cast few
      linarith
    · rw [admitted_cons_of_neg counted]
      exact ih judged

/-- In any stretch of the size fewer calls are let through than twice the limit: the calls of the
window before count against the last one of the later window. -/
theorem admitted_sliding (positive : 0 < size) (atLeastOne : 1 ≤ limit)
    (judged : Judged size limit calls) (start : Nat) : (admitted start (start + size) calls : ℚ) < 2 * limit := by
  have nonneg : 0 ≤ limit := by linarith
  induction calls with
  | nil =>
    simp only [admitted, List.countP_nil, Nat.cast_zero]
    linarith
  | cons call earlier ih =>
    have whole := judged
    obtain ⟨sorted, verdict, judged⟩ := judged
    by_cases counted : call.allowed = true ∧ start ≤ call.second ∧ call.second < start + size
    · obtain ⟨through, started, unfinished⟩ := counted
      by_cases begun : size * (call.second / size) ≤ start
      · -- All of them are in the window of the call.
        have inside : admitted start (start + size) (call :: earlier) ≤
            admitted (size * (call.second / size)) (size * (call.second / size) + size)
              (call :: earlier) := by
          refine admitted_mono fun other member sooner _ => ⟨begun.trans sooner, ?_⟩
          have last : other.second ≤ call.second := by
            rcases List.mem_cons.mp member with rfl | before
            · exact Nat.le_refl _
            · exact sorted other before
          exact last.trans_lt (Nat.lt_mul_div_succ call.second positive)
        have few := admitted_aligned positive nonneg whole (call.second / size)
        have inside : (admitted start (start + size) (call :: earlier) : ℚ) ≤ _ :=
          Nat.cast_le.mpr inside
        linarith
      · -- The window of the call begins within the stretch.
        have within : size * (call.second / size) ≤ call.second := Nat.mul_div_le _ _
        have above : call.second < size * (call.second / size) + size :=
          Nat.lt_mul_div_succ call.second positive
        rw [admitted_cons_of_pos through started unfinished,
          admitted_split (show start ≤ size * (call.second / size) by omega)
            (show size * (call.second / size) ≤ start + size by omega)]
        have own : admitted (size * (call.second / size)) (start + size) earlier ≤
            made size (call.second / size) earlier :=
          admitted_le_made fun _ _ sooner ended =>
            (div_eq_iff_within positive).mpr ⟨sooner, by omega⟩
        have least := made_le_estimate.trans (verdict.mp through)
        have ownCount : (admitted (size * (call.second / size)) (start + size) earlier : ℚ) ≤
            made size (call.second / size) earlier := by exact_mod_cast own
        by_cases empty : admitted start (size * (call.second / size)) earlier = 0
        · rw [empty]
          push_cast
          linarith
        · obtain ⟨before, next⟩ : ∃ before, call.second / size = before + 1 :=
            Nat.exists_eq_succ_of_ne_zero fun zero => begun (by rw [zero]; omega)
          have inBefore : ∀ other ∈ earlier, start ≤ other.second →
              other.second < size * (call.second / size) → other.second / size = before := by
            intro other _ sooner ended
            rw [next, Nat.mul_succ] at ended
            rw [next, Nat.mul_succ] at within
            exact (div_eq_iff_within positive).mpr ⟨by omega, ended⟩
          have crowded : 0 < madeBefore size (call.second / size) earlier := by
            refine Nat.lt_of_lt_of_le (Nat.pos_of_ne_zero empty) (admitted_le_madeBefore ?_)
            intro other member sooner ended
            rw [inBefore other member sooner ended, next]
          have strict := (made_lt_estimate positive crowded).trans_le (verdict.mp through)
          have aligned : admitted start (size * (call.second / size)) earlier ≤
              admitted (size * before) (size * before + size) earlier := by
            refine admitted_mono fun other member sooner ended => ?_
            exact (div_eq_iff_within positive).mp (inBefore other member sooner ended)
          have alignedCount : (admitted start (size * (call.second / size)) earlier : ℚ) ≤ limit :=
            (Nat.cast_le.mpr aligned).trans (admitted_aligned positive nonneg judged before)
          push_cast
          linarith
    · rw [admitted_cons_of_neg counted]
      exact ih judged

theorem refused_crowded (judged : Judged size limit (call :: earlier)) (refused : call.allowed = false) :
    limit < (made size (call.second / size) (call :: earlier) +
      madeBefore size (call.second / size) (call :: earlier) : Nat) := by
  obtain ⟨_, verdict, _⟩ := judged
  have above : limit < estimate size call.second earlier := by
    by_contra within
    rw [verdict.mpr (not_lt.mp within)] at refused
    cases refused
  have bound := above.trans_le estimate_le
  rw [made_cons, madeBefore_cons, if_pos rfl, if_neg (by omega)]
  push_cast
  linarith

end Call

end Lobu.Foundation
