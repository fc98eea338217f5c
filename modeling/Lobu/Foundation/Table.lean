import Mathlib.Data.Finset.Max

namespace Lobu.Foundation

/-! # Tables

A table is a list of rows.  A statement that rewrites rows says which rows its
`WHERE` clause selects and what its `SET` clause makes of one of them; a partial
unique index says which rows it covers and the key it holds them under.
-/

universe u v

/-- `UPDATE … SET sets WHERE selects`. -/
structure RowUpdate (ρ : Type u) where
  selects : ρ → Bool
  sets : ρ → ρ

namespace RowUpdate

variable {ρ : Type u} {β : Type v} {update : RowUpdate ρ} {row : ρ} {rows : List ρ}

def onRow (update : RowUpdate ρ) (row : ρ) : ρ :=
  if update.selects row then update.sets row else row

def run (update : RowUpdate ρ) (rows : List ρ) : List ρ :=
  rows.map update.onRow

theorem onRow_selected (selected : update.selects row = true) : update.onRow row = update.sets row :=
  if_pos selected

theorem onRow_skipped (skipped : update.selects row = false) : update.onRow row = row := by
  simp [RowUpdate.onRow, skipped]

@[simp] theorem mem_run {after : ρ} : after ∈ update.run rows ↔ ∃ before ∈ rows, update.onRow before = after :=
  List.mem_map

/-- A column that `SET` leaves alone is unchanged in every row. -/
theorem onRow_column (column : ρ → β) (kept : ∀ row, column (update.sets row) = column row)
    (row : ρ) : column (update.onRow row) = column row := by
  rw [RowUpdate.onRow]
  split
  · exact kept row
  · rfl

theorem eq_of_column {column : ρ → β} {other : ρ} (unique : (rows.map column).Nodup)
    (member : row ∈ rows) (otherMember : other ∈ rows) (same : column row = column other) : row = other :=
  List.inj_on_of_nodup_map unique member otherMember same

theorem run_column (column : ρ → β) (kept : ∀ row, column (update.sets row) = column row)
    (rows : List ρ) : (update.run rows).map column = rows.map column := by
  simp only [run, List.map_map]
  exact List.map_congr_left fun row _ => onRow_column column kept row

theorem forall_run (column : ρ → β) (property : β → Prop) (kept : ∀ row, column (update.sets row) = column row)
    (held : ∀ row ∈ rows, property (column row)) : ∀ row ∈ update.run rows, property (column row) := by
  intro row member
  obtain ⟨before, present, rfl⟩ := mem_run.mp member
  rw [onRow_column column kept]
  exact held before present

theorem countP_run_le (update : RowUpdate ρ) (kind : ρ → Bool) (rows : List ρ) :
    (update.run rows).countP kind ≤ rows.countP kind +
      rows.countP fun row => update.selects row && kind (update.sets row) && !kind row := by
  induction rows with
  | nil => exact Nat.le_refl _
  | cons row rows ih =>
    have onRow : kind (update.onRow row) = true → kind row = true ∨
        (update.selects row && kind (update.sets row) && !kind row) = true := by
      intro holds
      rw [RowUpdate.onRow] at holds
      split at holds
      · rename_i selected
        cases already : kind row <;> simp [selected, holds]
      · exact .inl holds
    simp only [run, List.map_cons, List.countP_cons] at ih ⊢
    split
    · rename_i holds
      rcases onRow holds with already | raised
      · rw [if_pos already]
        omega
      · rw [if_pos raised]
        omega
    · omega

theorem countP_le_one {column : ρ → β} {kind : ρ → Bool} (unique : (rows.map column).Nodup) (value : β)
    (only : ∀ row ∈ rows, kind row = true → column row = value) : rows.countP kind ≤ 1 := by
  induction rows with
  | nil => exact Nat.zero_le _
  | cons row rows ih =>
    rw [List.map_cons, List.nodup_cons] at unique
    have rest := ih unique.2 fun other member => only other (List.mem_cons_of_mem _ member)
    rw [List.countP_cons]
    split
    · rename_i holds
      have none_ : rows.countP kind = 0 := by
        apply List.countP_eq_zero.mpr
        intro other member otherHolds
        apply unique.1
        rw [only row List.mem_cons_self holds, ← only other (List.mem_cons_of_mem _ member) otherHolds]
        exact List.mem_map_of_mem member
      omega
    · exact rest

end RowUpdate

section Places

variable {ρ : Type u} {row present : ρ} {rows : List ρ} {index place : Nat}

theorem getElem?_set_cases (found : (rows.set index row)[place]? = some present) :
    place = index ∧ present = row ∨ place ≠ index ∧ rows[place]? = some present := by
  rw [List.getElem?_set] at found
  split at found
  · rename_i same
    split at found
    · cases found
      exact .inl ⟨same.symm, rfl⟩
    · contradiction
  · rename_i other
    exact .inr ⟨fun same => other same.symm, found⟩

theorem mem_set_of_mem {before : ρ} (found : rows[index]? = some before) (member : present ∈ rows)
    (row : ρ) : present = before ∨ present ∈ rows.set index row := by
  obtain ⟨place, there⟩ := List.mem_iff_getElem?.mp member
  by_cases same : index = place
  · subst same
    exact .inl (Option.some.inj (there.symm.trans found))
  · refine .inr (List.mem_iff_getElem?.mpr ⟨place, ?_⟩)
    rw [List.getElem?_set_ne same, there]

theorem getElem?_append_singleton_cases (found : (rows ++ [row])[place]? = some present) :
    place = rows.length ∧ present = row ∨ rows[place]? = some present := by
  rcases Nat.lt_or_ge place rows.length with below | above
  · rw [List.getElem?_append_left below] at found
    exact .inr found
  · rw [List.getElem?_append_right above] at found
    obtain ⟨bound, same⟩ := List.getElem?_eq_some_iff.mp found
    simp only [List.length_singleton] at bound
    refine .inl ⟨by omega, ?_⟩
    rw [← same]
    simp [show place - rows.length = 0 by omega]

theorem countP_places_le {places : List Nat} (once : places.Nodup) (kind : ρ → Bool) (rows : List ρ) :
    places.countP (fun place => (rows[place]?).any kind) ≤ rows.countP kind := by
  rw [List.countP_eq_length_filter, ← List.length_findIdxs (s := 0)]
  refine (List.subperm_of_subset (once.filter _) fun place member => ?_).length_le
  obtain ⟨_, holds⟩ := List.mem_filter.mp member
  obtain ⟨row, found, good⟩ := (Option.any_eq_true ..).mp holds
  obtain ⟨bound, rfl⟩ := List.getElem?_eq_some_iff.mp found
  exact List.mem_findIdxs_iff_exists_getElem_pos.mpr ⟨bound, good⟩

end Places

section Successors

variable {ρ : Type u} {β : Type v} [LinearOrder β] {rows : List ρ}

theorem exists_live_of_successors (kind live : ρ → Prop) (rank : ρ → β) (begun : ∃ row ∈ rows, kind row)
    (successor : ∀ row ∈ rows, kind row → ¬ live row → ∃ later ∈ rows, kind later ∧ rank row < rank later) :
    ∃ row ∈ rows, kind row ∧ live row := by
  classical
  obtain ⟨first, member, fits⟩ := begun
  obtain ⟨last, lastMember, greatest⟩ := Finset.exists_max_image
    (rows.toFinset.filter kind) rank ⟨first, by simp [member, fits]⟩
  simp only [Finset.mem_filter, List.mem_toFinset] at lastMember greatest
  refine ⟨last, lastMember.1, lastMember.2, ?_⟩
  by_contra ended
  obtain ⟨later, laterMember, laterFits, above⟩ := successor last lastMember.1 lastMember.2 ended
  exact absurd above (not_lt.mpr (greatest later ⟨laterMember, laterFits⟩))

end Successors

section Delete

variable {ρ : Type u} {row : ρ} {rows : List ρ}

/-- `DELETE … WHERE selects`. -/
def deleteWhere (selects : ρ → Bool) (rows : List ρ) : List ρ :=
  rows.filter fun row => !selects row

@[simp] theorem mem_deleteWhere {selects : ρ → Bool} :
    row ∈ deleteWhere selects rows ↔ row ∈ rows ∧ selects row = false := by
  simp [deleteWhere]

theorem countP_deleteWhere (selects kind : ρ → Bool) (rows : List ρ) :
    (deleteWhere selects rows).countP kind + (rows.filter selects).countP kind = rows.countP kind := by
  induction rows with
  | nil => rfl
  | cons row rows ih =>
    cases selected : selects row <;>
      simp only [deleteWhere, List.filter_cons, selected, List.countP_cons] at ih ⊢ <;>
      simp only [Bool.not_false, Bool.not_true, Bool.false_eq_true, ite_true, ite_false, List.countP_cons] at ih ⊢ <;>
      omega

end Delete

section DeleteFirst

variable {ρ : Type u} {selects : ρ → Bool} {row : ρ} {rows : List ρ} {count : Nat}

/-- `DELETE` of so many first ones of the rows that are selected. -/
def deleteFirst (selects : ρ → Bool) : Nat → List ρ → List ρ
  | 0, rows => rows
  | _ + 1, [] => []
  | count + 1, row :: rows =>
    if selects row then deleteFirst selects count rows
    else row :: deleteFirst selects (count + 1) rows

theorem deleteFirst_sublist (selects : ρ → Bool) (count : Nat) (rows : List ρ) :
    (deleteFirst selects count rows).Sublist rows := by
  induction rows generalizing count with
  | nil => cases count <;> exact List.Sublist.refl _
  | cons row rows ih =>
    cases count with
    | zero => exact List.Sublist.refl _
    | succ count =>
      rw [deleteFirst]
      split
      · exact (ih count).cons row
      · exact (ih (count + 1)).cons_cons row

theorem filter_deleteFirst (selects : ρ → Bool) (count : Nat) (rows : List ρ) :
    (deleteFirst selects count rows).filter selects = (rows.filter selects).drop count := by
  induction rows generalizing count with
  | nil => cases count <;> rfl
  | cons row rows ih =>
    cases count with
    | zero => rfl
    | succ count =>
      rw [deleteFirst]
      split
      · rename_i selected
        rw [ih, List.filter_cons_of_pos selected, List.drop_succ_cons]
      · rename_i skipped
        rw [List.filter_cons_of_neg skipped, List.filter_cons_of_neg skipped, ih]

end DeleteFirst

section Numbered

variable {ρ : Type u} {number : ρ → Nat} {next beyond : Nat} {new : ρ} {rows after : List ρ}

/-- The rows are told apart by their numbers, which have been drawn. -/
structure Numbered (number : ρ → Nat) (next : Nat) (rows : List ρ) : Prop where
  drawn : ∀ row ∈ rows, number row < next
  unique : ∀ row ∈ rows, ∀ other ∈ rows, number row = number other → row = other

theorem Numbered.nil : Numbered number next [] :=
  ⟨fun _ absent => (List.not_mem_nil absent).elim, fun _ absent => (List.not_mem_nil absent).elim⟩

theorem Numbered.subset (numbered : Numbered number next rows) (fewer : ∀ row ∈ after, row ∈ rows) :
    Numbered number next after :=
  ⟨fun row present => numbered.drawn row (fewer row present),
    fun row present other otherPresent =>
      numbered.unique row (fewer row present) other (fewer other otherPresent)⟩

theorem Numbered.mono (numbered : Numbered number next rows) (drawn : next ≤ beyond) : Numbered number beyond rows :=
  ⟨fun row present => (numbered.drawn row present).trans_le drawn, numbered.unique⟩

theorem Numbered.insert (numbered : Numbered number next rows) (drawn : number new = next)
    (fewer : ∀ row ∈ after, row = new ∨ row ∈ rows) : Numbered number (next + 1) after := by
  constructor
  · intro row present
    rcases fewer row present with rfl | old
    · omega
    · exact Nat.lt_succ_of_lt (numbered.drawn row old)
  · intro row present other otherPresent same
    rcases fewer row present with rfl | old
    · rcases fewer other otherPresent with rfl | otherOld
      · rfl
      · have below := numbered.drawn other otherOld
        omega
    · have below := numbered.drawn row old
      rcases fewer other otherPresent with rfl | otherOld
      · omega
      · exact numbered.unique row old other otherOld same

theorem Numbered.map (numbered : Numbered number next rows) {sets : ρ → ρ}
    (kept : ∀ row, number (sets row) = number row) : Numbered number next (rows.map sets) := by
  constructor
  · intro row present
    obtain ⟨before, old, rfl⟩ := List.mem_map.mp present
    rw [kept]
    exact numbered.drawn before old
  · intro row present other otherPresent same
    obtain ⟨before, old, rfl⟩ := List.mem_map.mp present
    obtain ⟨otherBefore, otherOld, rfl⟩ := List.mem_map.mp otherPresent
    rw [kept, kept] at same
    rw [numbered.unique before old otherBefore otherOld same]

theorem nodup_append_absent {β : Type v} {column : ρ → β} (unique : (rows.map column).Nodup)
    (absent : ∀ row ∈ rows, column row ≠ column new) : ((rows ++ [new]).map column).Nodup := by
  rw [List.map_append]
  refine List.nodup_append.mpr ⟨unique, List.nodup_singleton _, ?_⟩
  intro id member other last
  obtain ⟨row, present, rfl⟩ := List.mem_map.mp member
  rw [List.mem_singleton.mp last]
  exact absent row present

theorem nodup_append_drawn (unique : (rows.map number).Nodup) (below : ∀ row ∈ rows, number row < next)
    (drawn : number new = next) : ((rows ++ [new]).map number).Nodup :=
  nodup_append_absent unique fun row member => drawn ▸ (below row member).ne

theorem below_append_drawn (below : ∀ row ∈ rows, number row < next) (drawn : number new = next) :
    ∀ row ∈ rows ++ [new], number row < next + 1 := by
  intro row member
  rcases List.mem_append.mp member with old | last
  · exact Nat.lt_succ_of_lt (below row old)
  · rw [List.mem_singleton.mp last, drawn]
    exact Nat.lt_succ_self _

end Numbered

section First

variable {ρ : Type u} {row : ρ} {rows : List ρ} {comesBefore : ρ → ρ → Bool}

/-- `ORDER BY … LIMIT 1`, the order given by its strict comparison. -/
def firstBy (comesBefore : ρ → ρ → Bool) : List ρ → Option ρ
  | [] => none
  | row :: rows =>
    match firstBy comesBefore rows with
    | none => some row
    | some best => if comesBefore best row then some best else some row

theorem firstBy_mem (found : firstBy comesBefore rows = some row) : row ∈ rows := by
  induction rows generalizing row with
  | nil => contradiction
  | cons head tail ih =>
    simp only [firstBy] at found
    split at found
    · cases found
      exact List.mem_cons_self
    · rename_i best earlier
      split at found
      · cases found
        exact List.mem_cons_of_mem _ (ih earlier)
      · cases found
        exact List.mem_cons_self

theorem firstBy_eq_none : firstBy comesBefore rows = none ↔ rows = [] := by
  cases rows with
  | nil => simp [firstBy]
  | cons row rows =>
    simp only [firstBy, reduceCtorEq, iff_false]
    split
    · simp
    · split <;> simp

theorem firstBy_least {β : Type v} [LinearOrder β] (rank : ρ → β)
    (ranks : ∀ row other, comesBefore row other = true ↔ rank row < rank other)
    (found : firstBy comesBefore rows = some row) : ∀ other ∈ rows, rank row ≤ rank other := by
  induction rows generalizing row with
  | nil => cases found
  | cons head rows ih =>
    intro other present
    simp only [firstBy] at found
    split at found
    · rename_i nothing
      cases found
      rw [firstBy_eq_none.mp nothing, List.mem_singleton] at present
      rw [present]
    · rename_i best foundThere
      have least := ih foundThere
      split at found
      · rename_i earlier
        cases found
        rcases List.mem_cons.mp present with rfl | later
        · exact ((ranks _ _).mp earlier).le
        · exact least other later
      · rename_i notEarlier
        cases found
        rcases List.mem_cons.mp present with rfl | later
        · exact le_rfl
        · exact (not_lt.mp fun earlier => notEarlier ((ranks _ _).mpr earlier)).trans (least other later)

end First

section Upsert

variable {ρ : Type u} {selects other : ρ → Bool} {row : ρ}

/-- `INSERT … ON CONFLICT DO UPDATE`: the row takes the place of those that are selected, or
is new. -/
def upsert (selects : ρ → Bool) (row : ρ) (rows : List ρ) : List ρ :=
  if rows.any selects then rows.map fun present => if selects present then row else present
  else rows ++ [row]

theorem find?_upsert (selected : selects row = true) (rows : List ρ) :
    (upsert selects row rows).find? selects = some row := by
  have replaced : ∀ present, selects (if selects present then row else present) = selects present := by
    intro present
    split
    · rename_i picked
      rw [selected, picked]
    · rfl
  unfold upsert
  split
  · rename_i present
    obtain ⟨found, member, picked⟩ := List.any_eq_true.mp present
    obtain ⟨first, held⟩ := Option.isSome_iff_exists.mp (List.find?_isSome.mpr ⟨found, member, picked⟩)
    simp only [List.find?_map, Function.comp_def, replaced, held, Option.map_some, List.find?_some held, if_true]
  · rename_i absent
    have missing : rows.find? selects = none := by
      apply List.find?_eq_none.mpr
      intro present member picked
      exact absent (List.any_eq_true.mpr ⟨present, member, picked⟩)
    simp [List.find?_append, missing, selected]

theorem mem_upsert {present : ρ} {rows : List ρ} (member : present ∈ upsert selects row rows) :
    present = row ∨ present ∈ rows ∧ selects present = false := by
  unfold upsert at member
  split at member
  · obtain ⟨before, held, same⟩ := List.mem_map.mp member
    split at same
    · exact .inl same.symm
    · rename_i unpicked
      subst same
      exact .inr ⟨held, by simpa using unpicked⟩
  · rename_i absent
    rcases List.mem_append.mp member with held | new
    · refine .inr ⟨held, ?_⟩
      by_contra picked
      exact absent (List.any_eq_true.mpr ⟨present, held, by simpa using picked⟩)
    · exact .inl (List.mem_singleton.mp new)

theorem find?_upsert_other (apart : ∀ present, selects present = true → other present = false)
    (selected : selects row = true) (rows : List ρ) : (upsert selects row rows).find? other = rows.find? other := by
  have skipped : ∀ present, other (if selects present then row else present) = other present := by
    intro present
    split
    · rename_i picked
      rw [apart row selected, apart present picked]
    · rfl
  unfold upsert
  split
  · simp only [List.find?_map, Function.comp_def, skipped]
    cases held : rows.find? other with
    | none => rfl
    | some found =>
      have unpicked : selects found ≠ true := by
        intro picked
        have seen := List.find?_some held
        rw [apart found picked] at seen
        contradiction
      rw [Option.map_some, if_neg unpicked]
  · simp [List.find?_append, apart row selected]

end Upsert

/-- `CREATE UNIQUE INDEX … (key) WHERE covers`; a row whose key is null is never
in conflict. -/
structure PartialIndex (ρ : Type u) (κ : Type v) where
  covers : ρ → Bool
  key : ρ → Option κ

namespace PartialIndex

variable {ρ : Type u} {κ : Type v} [DecidableEq κ] {index : PartialIndex ρ κ}
variable {rows : List ρ} {row : ρ}

def holds (index : PartialIndex ρ κ) (key : κ) (row : ρ) : Bool :=
  index.covers row && index.key row == some key

/-- The test of `ON CONFLICT … DO NOTHING` for a new row with this key. -/
def conflicts (index : PartialIndex ρ κ) (key : Option κ) (rows : List ρ) : Bool :=
  key.any fun key => rows.any (index.holds key)

theorem holds_iff {key : κ} : index.holds key row = true ↔ index.covers row = true ∧ index.key row = some key := by
  simp [holds]

theorem conflicts_iff {key : Option κ} :
    index.conflicts key rows = true ↔ ∃ held, key = some held ∧ ∃ row ∈ rows, index.holds held row = true := by
  cases key <;> simp [conflicts]

end PartialIndex

end Lobu.Foundation
