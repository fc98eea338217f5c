import Lobu.Proxy.GrantLookup

namespace Lobu.Proxy

/-! # The grants over a run

Each call is one statement, so concurrent calls take effect in some order.
-/

inductive GrantCall where
  | grant (now : Int) (agentId : String) (pattern : List Char) (expiresAt : Option Int) (denied : Bool)
    (ambient organizationId : Option String)
  | revoke (agentId : String) (pattern : List Char) (ambient organizationId : Option String)
  | sweep (now : Int)

variable (names : DomainNames)

namespace GrantCall

/-- A grant that is refused leaves the table. -/
def perform (rows : List GrantRow) : GrantCall → List GrantRow
  | grant now agentId pattern expiresAt denied ambient organizationId =>
    (Proxy.grant names ambient rows now agentId pattern expiresAt denied organizationId).toOption.getD rows
  | revoke agentId pattern ambient organizationId => Proxy.revoke names ambient rows agentId pattern organizationId
  | sweep now => sweepExpiredGrants rows now

/-- What the call decides about the key of a row: which row it has, or that it has none. -/
def decides (row : GrantRow) : GrantCall → Option (Option GrantRow)
  | grant now agentId pattern expiresAt denied ambient organizationId => do
    let pattern := normalizeDomainPattern names pattern
    let orgId ← (organizationId.or ambient).filter (· ≠ "")
    let new : GrantRow := ⟨orgId, agentId, inferGrantKind pattern, pattern, expiresAt, now, denied⟩
    if new.key = row.key then some (some new) else none
  | revoke agentId pattern ambient organizationId =>
    if row.agentId == agentId && row.kind == inferGrantKind pattern &&
        (getDomainGrantCandidates names pattern).contains row.pattern && orgScope (organizationId.or ambient) row
    then some none else none
  | sweep _ => none

end GrantCall

/-- The table after some calls, the latest first. -/
def grantsAfter : List GrantCall → List GrantRow
  | [] => []
  | call :: earlier => call.perform names (grantsAfter earlier)

variable {names} {call : GrantCall} {calls : List GrantCall} {row new : GrantRow} {rows : List GrantRow}

theorem mem_renewed (held : rows.any (fun other => other.key == new.key) = true) :
    row ∈ (rows.map fun other => if other.key = new.key then new else other) ↔
      if new.key = row.key then new = row else row ∈ rows := by
  obtain ⟨holder, member, same⟩ := List.any_eq_true.mp held
  rw [beq_iff_eq] at same
  simp only [List.mem_map]
  constructor
  · rintro ⟨other, among, rfl⟩
    split <;> grind
  · split
    · rintro rfl
      exact ⟨holder, member, if_pos same⟩
    · rename_i apart
      exact fun among => ⟨row, among, if_neg (Ne.symm apart)⟩

theorem mem_inserted (fresh : ¬ rows.any (fun other => other.key == new.key) = true) :
    row ∈ rows ++ [new] ↔ if new.key = row.key then new = row else row ∈ rows := by
  have absent : new.key = row.key → row ∉ rows := by
    intro same member
    exact fresh (List.any_eq_true.mpr ⟨row, member, beq_iff_eq.mpr same.symm⟩)
  rw [List.mem_append, List.mem_singleton]
  split <;> grind

theorem mem_perform : row ∈ call.perform names rows ↔ match call.decides names row with
    | some decided => decided = some row
    | none => row ∈ rows ∧ ∀ time, call = .sweep time → row.live time = true := by
  cases call with
  | grant now agentId pattern expiresAt denied ambient organizationId =>
    simp only [GrantCall.perform, grant, GrantCall.decides]
    cases (organizationId.or ambient).filter (· ≠ "") with
    | none => simp [Except.toOption]
    | some orgId =>
      simp only [Option.bind_eq_bind, Option.bind_some]
      split
      · rename_i held
        simp only [Except.toOption, Option.getD_some, mem_renewed held]
        split <;> simp
      · rename_i fresh
        simp only [Except.toOption, Option.getD_some, mem_inserted fresh]
        split <;> simp
  | revoke agentId pattern ambient organizationId =>
    simp only [GrantCall.perform, GrantCall.decides, revoke, List.mem_filter]
    split_ifs with covered
    · simp only [covered, Bool.not_true, Bool.false_eq_true, and_false, reduceCtorEq]
    · simp only [eq_false_of_ne_true covered, Bool.not_false, false_imp_iff, implies_true]
  | sweep now => simp [GrantCall.perform, GrantCall.decides, sweepExpiredGrants]

/-- The calls have granted the row, and decided nothing about its key since. -/
def IsGranted (names : DomainNames) (calls : List GrantCall) (row : GrantRow) : Prop :=
  calls.findSome? (GrantCall.decides names row) = some (some row)

theorem grantsAfter_kept : ∀ calls : List GrantCall, GrantsKept names (grantsAfter names calls)
  | [] => GrantsKept.empty
  | call :: earlier => by
    have kept := grantsAfter_kept earlier
    cases call with
    | grant now agentId pattern expiresAt denied ambient organizationId =>
      rw [grantsAfter, GrantCall.perform]
      cases granted : grant names ambient (grantsAfter names earlier) now agentId pattern expiresAt denied
          organizationId with
      | error _ => exact kept
      | ok after => exact kept.grant granted
    | revoke agentId pattern ambient organizationId => exact kept.revoke ambient agentId pattern organizationId
    | sweep now => exact kept.sweep now

theorem live_earlier {earlier now : Int} (past : earlier ≤ now) (live : row.live now = true) :
    row.live earlier = true := by
  rw [GrantRow.live, Option.all_eq_true] at *
  exact fun expiry held => decide_eq_true (Int.lt_of_le_of_lt past (of_decide_eq_true (live expiry held)))

theorem mem_grantsAfter {now : Int} (live : row.live now = true) (past : ∀ time, .sweep time ∈ calls → time ≤ now) :
    row ∈ grantsAfter names calls ↔ IsGranted names calls row := by
  induction calls with
  | nil => simp [grantsAfter, IsGranted]
  | cons call earlier ih =>
    have before := ih fun time member => past time (List.mem_cons_of_mem call member)
    rw [grantsAfter, mem_perform, IsGranted, List.findSome?_cons]
    cases decided : call.decides names row with
    | some _ => simp
    | none =>
      refine (and_iff_left ?_).trans before
      rintro time rfl
      exact live_earlier (past time List.mem_cons_self) live

/-- After any calls the rows are well formed, no two of a key, and a lookup selects those that were
granted and neither renewed nor revoked since; it never notices what was swept. -/
theorem lookup_after {now : Int} {agentId : String} {pattern : List Char} {orgId : Option String}
    (past : ∀ time, .sweep time ∈ calls → time ≤ now) :
    GrantsKept names (grantsAfter names calls) ∧
      ∀ row, row ∈ lookupRows names (grantsAfter names calls) now agentId pattern orgId ↔
        IsGranted names calls row ∧ row.live now = true ∧ row.agentId = agentId ∧
          row.kind = inferGrantKind pattern ∧ row.pattern ∈ buildGrantCandidates names pattern (inferGrantKind pattern) ∧
            orgScope orgId row = true := by
  refine ⟨grantsAfter_kept calls, fun row => ?_⟩
  simp only [lookupRows, List.mem_filter, Bool.and_eq_true, beq_iff_eq, List.contains_iff_mem]
  by_cases live : row.live now = true
  · rw [mem_grantsAfter live past]
    tauto
  · simp [live]

/-- A denial renews a grant, and what has expired is swept. -/
def renewal : List GrantCall :=
  [.sweep 5, .grant 4 "agent" ".example.com".toList none true none (some "org"),
    .grant 3 "agent" "*.Example.com".toList (some 5) false none (some "org")]

theorem lookup_after_renewal : (⟨"org", "agent", .domain, ".example.com".toList, none, 4, true⟩ : GrantRow) ∈
    lookupRows asciiNames (grantsAfter asciiNames renewal) 9 "agent" "api.example.com".toList (some "org") :=
  ((lookup_after (by simp [renewal])).2 _).mpr ⟨by unfold IsGranted; decide +kernel, rfl, rfl, rfl,
    by decide +kernel, rfl⟩

end Lobu.Proxy
