import Lobu.Foundation.Double
import Lobu.Foundation.Table
import Lobu.Foundation.Transaction

namespace Lobu.Reports

open Lobu.Foundation

/-! # The rows of a sales battle report schedule

The columns of `scheduled_jobs` and of the sync table that a reconciliation reads or
writes, and its statements.  A table has unique ids and keeps the unique index on the
external keys; a statement that would break it fails.
-/

inductive Fault where
  | typeError
  | uniqueViolation
deriving DecidableEq

/-- What of the runtime and of the database the reconciliation rests on: how numbers are
written and texts read as numbers (`none` is `NaN`), how texts are compared, how `->>` writes
a value that is no string, and the text of an id. -/
structure Runtime where
  numberText : Rat → String
  numberText_digit : ∀ digit : Fin 7, numberText digit.val = toString digit.val
  textNumber : String → Option JsNumber
  localeCompare : String → String → Int
  jsonbText : Json → String
  idText : Nat → String

/-- A row as the driver reads it; `createdAt` is `none` where the date is not finite. -/
structure ScheduledJobRow where
  id : Nat
  externalKey : Option String
  scheduleRevision : Int
  organizationId : String
  actionType : String
  actionArgs : Json
  cron : Option String
  nextRunAt : Int
  paused : Bool
  description : String
  createdByUser : Option String
  createdByAgent : Option String
  createdAt : Option Int
deriving DecidableEq

structure StoredJob where
  job : ScheduledJobRow
  updatedAt : Int

/-- `scheduled_jobs_external_key_unique`. -/
def externalKeyIndex : PartialIndex ScheduledJobRow (String × String × String) where
  covers job := job.externalKey.isSome && job.createdByUser.isSome
  key job := do return (job.organizationId, ← job.createdByUser, ← job.externalKey)

def collides (first second : ScheduledJobRow) : Bool :=
  externalKeyIndex.covers first && externalKeyIndex.covers second &&
    externalKeyIndex.key first == externalKeyIndex.key second

theorem collides_swap (first second : ScheduledJobRow) : collides first second = collides second first := by
  rw [Bool.eq_iff_iff]
  simp only [collides, Bool.and_eq_true, beq_iff_eq]
  constructor <;>
    exact fun collision => ⟨⟨collision.1.2, collision.1.1⟩, collision.2.symm⟩

/-- `scheduled_jobs`; the id of a new row is one that no row has had. -/
structure JobTable where
  rows : List StoredJob
  nextId : Nat
  ids : (rows.map (·.job.id)).Nodup
  fresh : ∀ stored ∈ rows, stored.job.id < nextId
  keys : ∀ first ∈ rows, ∀ second ∈ rows,
    collides first.job second.job = true → first.job.id = second.job.id

structure SyncRow where
  organizationId : String
  toolboxScheduleId : String
  lastAcceptedRevision : Nat
  desiredState : String
  acceptedRequestFingerprint : String

structure Database where
  jobs : JobTable
  sync : List SyncRow

namespace JobTable

variable {table after : JobTable} {id : Nat} {job written : ScheduledJobRow}
variable {sets : ScheduledJobRow → ScheduledJobRow} {now : Int}

def Holds (table : JobTable) (job : ScheduledJobRow) : Prop :=
  ∃ stored ∈ table.rows, stored.job = job

theorem Holds.eq (held : table.Holds job) (other : table.Holds written)
    (same : job.id = written.id) : job = written := by
  obtain ⟨stored, member, rfl⟩ := held
  obtain ⟨found, present, rfl⟩ := other
  rw [List.inj_on_of_nodup_map table.ids member present same]

def rewritten (table : JobTable) (id : Nat) (sets : ScheduledJobRow → ScheduledJobRow) (now : Int) : List StoredJob :=
  table.rows.map fun stored =>
    if stored.job.id = id then ⟨{ sets stored.job with id := stored.job.id }, now⟩ else stored

theorem mem_rewritten {stored : StoredJob} :
    stored ∈ table.rewritten id sets now ↔ (stored ∈ table.rows ∧ stored.job.id ≠ id) ∨
        ∃ job, table.Holds job ∧ job.id = id ∧ stored = ⟨{ sets job with id }, now⟩ := by
  simp only [rewritten, List.mem_map]
  constructor
  · rintro ⟨present, member, rfl⟩
    split
    · rename_i chosen
      exact .inr ⟨present.job, ⟨present, member, rfl⟩, chosen, by rw [chosen]⟩
    · rename_i other
      exact .inl ⟨member, other⟩
  · rintro (⟨member, other⟩ | ⟨job, ⟨present, member, rfl⟩, chosen, rfl⟩)
    · exact ⟨stored, member, if_neg other⟩
    · exact ⟨present, member, by rw [if_pos chosen, chosen]⟩

theorem rewritten_ids (table : JobTable) (id : Nat) (sets : ScheduledJobRow → ScheduledJobRow) (now : Int) :
    (table.rewritten id sets now).map (·.job.id) = table.rows.map (·.job.id) := by
  rw [rewritten, List.map_map]
  apply List.map_congr_left
  intro stored _
  simp only [Function.comp_apply]
  split <;> rfl

/-- `UPDATE scheduled_jobs SET … WHERE id = … RETURNING *`. -/
def update (table : JobTable) (id : Nat) (sets : ScheduledJobRow → ScheduledJobRow) (now : Int) :
    Except Fault (Option ScheduledJobRow × JobTable) :=
  let rows := table.rewritten id sets now
  if unique : ∀ first ∈ rows, ∀ second ∈ rows,
      collides first.job second.job = true → first.job.id = second.job.id then
    .ok ((rows.find? (·.job.id == id)).map (·.job), {
      rows
      nextId := table.nextId
      ids := (table.rewritten_ids id sets now).symm ▸ table.ids
      fresh := by
        intro stored member
        rcases mem_rewritten.mp member with ⟨kept, _⟩ | ⟨job, ⟨held, present, rfl⟩, rfl, rfl⟩
        · exact table.fresh stored kept
        · exact table.fresh held present
      keys := unique })
  else .error .uniqueViolation

/-- `INSERT INTO scheduled_jobs … RETURNING *`. -/
def insert (table : JobTable) (job : ScheduledJobRow) (now : Int) : Except Fault (ScheduledJobRow × JobTable) :=
  let row := { job with id := table.nextId }
  if unique : ∀ stored ∈ table.rows, collides stored.job row = false then
    .ok (row, {
      rows := table.rows ++ [⟨row, now⟩]
      nextId := table.nextId + 1
      ids := nodup_append_drawn table.ids table.fresh rfl
      fresh := below_append_drawn table.fresh rfl
      keys := by
        intro first firstMember second secondMember collision
        rcases List.mem_append.mp firstMember with firstKept | firstLast <;>
          rcases List.mem_append.mp secondMember with secondKept | secondLast
        · exact table.keys first firstKept second secondKept collision
        · obtain rfl := List.mem_singleton.mp secondLast
          rw [unique first firstKept] at collision
          contradiction
        · obtain rfl := List.mem_singleton.mp firstLast
          rw [collides_swap, unique second secondKept] at collision
          contradiction
        · obtain rfl := List.mem_singleton.mp firstLast
          obtain rfl := List.mem_singleton.mp secondLast
          rfl })
  else .error .uniqueViolation

/-- `DELETE FROM scheduled_jobs WHERE id = …`. -/
def delete (table : JobTable) (id : Nat) : JobTable where
  rows := deleteWhere (·.job.id == id) table.rows
  nextId := table.nextId
  ids := List.Nodup.sublist (List.Sublist.map _ List.filter_sublist) table.ids
  fresh := by
    intro stored member
    exact table.fresh stored (mem_deleteWhere.mp member).1
  keys := by
    intro first firstMember second secondMember
    exact table.keys first (mem_deleteWhere.mp firstMember).1 second
      (mem_deleteWhere.mp secondMember).1

theorem update_held (now : Int) (held : table.Holds job) (apart : ∀ other, table.Holds other → other.id ≠ job.id →
      collides other { sets job with id := job.id } = false) :
    ∃ after, table.update job.id sets now = .ok (some { sets job with id := job.id }, after) ∧
      ∀ other, after.Holds other ↔
        other = { sets job with id := job.id } ∨ (table.Holds other ∧ other.id ≠ job.id) := by
  have written : ∀ stored ∈ table.rewritten job.id sets now, (stored ∈ table.rows ∧ stored.job.id ≠ job.id) ∨
        stored = ⟨{ sets job with id := job.id }, now⟩ := by
    intro stored member
    rcases mem_rewritten.mp member with kept | ⟨present, found, same, rfl⟩
    · exact .inl kept
    · rw [found.eq held same]
      exact .inr rfl
  have unique : ∀ first ∈ table.rewritten job.id sets now, ∀ second ∈ table.rewritten job.id sets now,
      collides first.job second.job = true → first.job.id = second.job.id := by
    intro first firstMember second secondMember collision
    rcases written first firstMember with ⟨firstKept, firstOther⟩ | rfl <;>
      rcases written second secondMember with ⟨secondKept, secondOther⟩ | rfl
    · exact table.keys first firstKept second secondKept collision
    · rw [apart first.job ⟨first, firstKept, rfl⟩ firstOther] at collision
      contradiction
    · rw [collides_swap, apart second.job ⟨second, secondKept, rfl⟩ secondOther] at collision
      contradiction
    · rfl
  have there : (⟨{ sets job with id := job.id }, now⟩ : StoredJob) ∈ table.rewritten job.id sets now :=
    mem_rewritten.mpr (.inr ⟨job, held, rfl, rfl⟩)
  have returned : ((table.rewritten job.id sets now).find? (·.job.id == job.id)).map (·.job) =
      some { sets job with id := job.id } := by
    cases found : (table.rewritten job.id sets now).find? (·.job.id == job.id) with
    | none =>
      have missing := List.find?_eq_none.mp found _ there
      simp at missing
    | some stored =>
      have same : stored.job.id = job.id := by simpa using List.find?_some found
      rcases written stored (List.mem_of_find?_eq_some found) with ⟨_, other⟩ | rfl
      · exact absurd same other
      · rfl
  refine ⟨_, by rw [update, dif_pos unique, returned], ?_⟩
  intro other
  constructor
  · rintro ⟨stored, member, rfl⟩
    rcases written stored member with ⟨kept, different⟩ | rfl
    · exact .inr ⟨⟨stored, kept, rfl⟩, different⟩
    · exact .inl rfl
  · rintro (rfl | ⟨⟨stored, member, rfl⟩, different⟩)
    · exact ⟨_, there, rfl⟩
    · exact ⟨stored, mem_rewritten.mpr (.inl ⟨member, different⟩), rfl⟩

theorem insert_fresh (job : ScheduledJobRow) (now : Int)
    (apart : ∀ other, table.Holds other → collides other { job with id := table.nextId } = false) :
    ∃ after, table.insert job now = .ok ({ job with id := table.nextId }, after) ∧ ∀ other, after.Holds other ↔
        other = { job with id := table.nextId } ∨ table.Holds other := by
  have unique : ∀ stored ∈ table.rows, collides stored.job { job with id := table.nextId } = false :=
    fun stored member => apart stored.job ⟨stored, member, rfl⟩
  refine ⟨_, by rw [insert, dif_pos unique], ?_⟩
  intro other
  constructor
  · rintro ⟨stored, member, rfl⟩
    rcases List.mem_append.mp member with kept | last
    · exact .inr ⟨stored, kept, rfl⟩
    · obtain rfl := List.mem_singleton.mp last
      exact .inl rfl
  · rintro (rfl | ⟨stored, member, rfl⟩)
    · exact ⟨_, List.mem_append_right _ List.mem_cons_self, rfl⟩
    · exact ⟨stored, List.mem_append_left _ member, rfl⟩

@[simp] theorem holds_delete : (table.delete id).Holds job ↔ table.Holds job ∧ job.id ≠ id := by
  constructor
  · rintro ⟨stored, member, rfl⟩
    obtain ⟨kept, other⟩ := mem_deleteWhere.mp member
    exact ⟨⟨stored, kept, rfl⟩, by simpa using other⟩
  · rintro ⟨⟨stored, member, rfl⟩, other⟩
    exact ⟨stored, mem_deleteWhere.mpr ⟨member, by simpa using other⟩, rfl⟩

end JobTable

end Lobu.Reports
