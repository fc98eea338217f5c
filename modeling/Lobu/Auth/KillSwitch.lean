import Lobu.Auth.RevokedTokens

namespace Lobu.Auth

open Lobu.Foundation

variable {crowd after : RevocationCalls} {state later : Revocations} {step : RevocationStep}
variable {moment : Moment} {jti : String} {pod : Nat} {expiresAt : Int}
variable {allowed : Discipline RevocationCalls (CrowdEvent RevocationCommand Moment)}

/-! # The kill switch -/

/-- The table holds the revocation for as long as was asked. -/
def Held (state : Revocations) (jti : String) (expiresAt : Int) : Prop :=
  ∃ row ∈ state.revokedTokens, row.jti = jti ∧ expiresAt ≤ row.expiresAt

theorem held_insert (state : Revocations) (jti : String) (expiresAt : Int) :
    Held (state.insertRevoked jti expiresAt) jti expiresAt := by
  unfold Held Revocations.insertRevoked
  by_cases present : state.revokedTokens.any (fun row => decide (row.jti = jti)) = true
  · obtain ⟨row, member, same⟩ := List.any_eq_true.mp present
    simp only [present, if_true]
    refine ⟨_, RowUpdate.mem_run.mpr ⟨row, member, RowUpdate.onRow_selected same⟩, ?_, ?_⟩
    · exact of_decide_eq_true same
    · exact le_max_right _ _
  · refine ⟨⟨jti, expiresAt⟩, ?_, rfl, le_refl _⟩
    simp [present]

theorem Held.insert (held : Held state jti expiresAt) (other : String) (until_ : Int) :
    Held (state.insertRevoked other until_) jti expiresAt := by
  obtain ⟨row, member, same, lasts⟩ := held
  unfold Held Revocations.insertRevoked
  by_cases present : state.revokedTokens.any (fun row => decide (row.jti = other)) = true
  · simp only [present, if_true]
    refine ⟨_, RowUpdate.mem_run.mpr ⟨row, member, rfl⟩, ?_⟩
    rw [RowUpdate.onRow]
    split
    · exact ⟨same, lasts.trans (le_max_left _ _)⟩
    · exact ⟨same, lasts⟩
  · refine ⟨row, ?_, same, lasts⟩
    simp [present, member]

theorem Held.delete (held : Held state jti expiresAt) (alive : state.now < expiresAt) :
    Held state.deleteExpired jti expiresAt := by
  obtain ⟨row, member, same, lasts⟩ := held
  refine ⟨row, mem_deleteWhere.mpr ⟨member, ?_⟩, same, lasts⟩
  simp only [Revocations.isExpired, decide_eq_false_iff_not]
  omega

theorem Held.isRevoked (held : Held state jti expiresAt) (alive : state.now < expiresAt) :
    state.isRevoked jti = true := by
  obtain ⟨row, member, same, lasts⟩ := held
  refine List.any_eq_true.mpr ⟨row, member, ?_⟩
  simp only [Bool.and_eq_true, decide_eq_true_eq]
  exact ⟨same, by omega⟩

theorem perform_now (state : Revocations) (fails : Bool) (step : RevocationStep) :
    (state.perform fails step).2.now = state.now := by
  cases step <;> simp only [Revocations.perform]
  case insertRevoked | deleteExpired => split <;> rfl
  all_goals rfl

theorem Held.perform (held : Held state jti expiresAt) (alive : state.now < expiresAt)
    (fails : Bool) (step : RevocationStep) : Held (state.perform fails step).2 jti expiresAt := by
  cases step <;> simp only [Revocations.perform]
  case insertRevoked other until_ =>
    split
    · exact held
    · exact held.insert other until_
  case deleteExpired =>
    split
    · exact held
    · exact held.delete alive
  all_goals exact held

theorem perform_cache {cached : CachedToken} {fails : Bool} (member : cached ∈ (state.perform fails step).2.cache) :
    cached ∈ state.cache ∨ (∃ pod jti, step = .cacheRevoked pod jti ∧ cached = ⟨pod, jti, ⟨true, state.now⟩⟩) ∨
      step = .cacheAnswer cached.pod cached.jti cached.entry := by
  cases step <;> simp only [Revocations.perform] at member
  case insertRevoked | deleteExpired =>
    split at member <;> exact .inl member
  case cacheRevoked pod jti =>
    rcases mem_upsert member with rfl | ⟨old, -⟩
    · exact .inr (.inl ⟨pod, jti, rfl, rfl⟩)
    · exact .inl old
  case cacheAnswer pod jti entry =>
    rcases mem_upsert member with rfl | ⟨old, -⟩
    · exact .inr (.inr rfl)
    · exact .inl old
  case evictStale pod => exact .inl (mem_deleteWhere.mp member).1
  all_goals exact .inl member

abbrev Exchanges := List (Exchange RevocationStep.Answer)

/-- A call looks into the cache first, and puts there what the table has told it. -/
def permits (said : Exchanges) : RevocationStep → Prop
  | .consult .. => said = []
  | .cacheAnswer pod jti entry => ⟨.selectRevoked jti, some entry.revoked⟩ ∈ said ∧
      ∃ consulted, ⟨.consult pod jti, consulted⟩ ∈ said ∧ consulted.now = entry.cachedAt
  | _ => True

def Ends (said : Exchanges) : RevocationCommand → RevocationReply → Prop
  | .revoke pod jti expiresAt, .revoked => ∃ earlier committedAt,
      said = ⟨.cacheRevoked pod jti, ()⟩ :: earlier ∧
        ⟨.insertRevoked jti expiresAt, some committedAt⟩ ∈ earlier
  | .isRevokedCached pod jti, .answer revoked => jti = "" ∨
      ∃ consulted, ⟨.consult pod jti, consulted⟩ ∈ said ∧
        revoked = consulted.fresh?.any CacheEntry.revoked
  | .isRevoked pod jti, .answer revoked => jti = "" ∨
      ∃ consulted, ⟨.consult pod jti, consulted⟩ ∈ said ∧
        (∀ other, ⟨.consult pod jti, other⟩ ∈ said → other = consulted) ∧
        ((∃ entry, consulted.fresh? = some entry ∧ revoked = entry.revoked) ∨
          ⟨.selectRevoked jti, some revoked⟩ ∈ said ∨ ⟨.selectRevoked jti, none⟩ ∈ said)
  | _, _ => True

/-- What a call keeps to, whatever it is told. -/
abbrev Abides (command : RevocationCommand) (said : Exchanges) (call : RevocationCall) : Prop :=
  Process.Keeps permits (fun _ _ => True) (fun said reply => Ends said command reply) said call

theorem revoke_abides (pod : Nat) (jti : String) (expiresAt : Int) :
    Abides (.revoke pod jti expiresAt) [] (revoke pod jti expiresAt) := by
  refine .answered trivial fun inserted _ => ?_
  cases inserted with
  | none => exact trivial
  | some committedAt =>
    refine .answered trivial fun _ _ => ?_
    exact ⟨_, committedAt, rfl, List.mem_cons_self⟩

theorem isRevokedCached_abides (pod : Nat) (jti : String) :
    Abides (.isRevokedCached pod jti) [] (isRevokedCached pod jti) := by
  unfold isRevokedCached
  split
  · rename_i unnamed
    exact .inl unnamed
  · refine .answered rfl fun consulted _ => ?_
    exact .inr ⟨consulted, List.mem_cons_self, rfl⟩

theorem isRevoked_abides (pod : Nat) (jti : String) : Abides (.isRevoked pod jti) [] (isRevoked pod jti) := by
  unfold isRevoked
  split
  · rename_i unnamed
    exact .inl unnamed
  · refine .answered rfl fun consulted _ => ?_
    split
    · rename_i entry fresh
      exact .inr ⟨consulted, List.mem_cons_self, by simp, .inl ⟨entry, fresh, rfl⟩⟩
    · refine .answered trivial fun selected _ => ?_
      cases selected with
      | none => exact .inr ⟨consulted, by simp, by simp, .inr (.inr (by simp))⟩
      | some revoked =>
        refine .answered ⟨by simp, consulted, by simp, rfl⟩ fun _ _ => ?_
        exact .inr ⟨consulted, by simp, by simp, .inr (.inl (by simp))⟩

theorem sweepExpired_abides (pod : Nat) : Abides (.sweepExpired pod) [] (sweepExpired pod) := by
  refine .answered trivial fun deleted _ => ?_
  cases deleted with
  | none => exact trivial
  | some count => exact .answered trivial fun _ _ => trivial

theorem call_abides (command : RevocationCommand) : Abides command [] command.call := by
  cases command with
  | revoke pod jti expiresAt => exact revoke_abides pod jti expiresAt
  | isRevokedCached pod jti => exact isRevokedCached_abides pod jti
  | isRevoked pod jti => exact isRevoked_abides pod jti
  | sweepExpired pod => exact sweepExpired_abides pod

variable {member : Member RevocationCommand RevocationStep.Answer RevocationReply}

theorem abides (reached : revocationStore.Reachable allowed crowd)
    (present : member ∈ crowd.members) : Abides member.command member.said member.rest :=
  (call_abides member.command).after (Crowd.went reached member present) fun _ _ _ => trivial

theorem serve_performs {answer : step.Answer} (served : Revocations.serve state step moment = some (answer, later)) :
    state.now ≤ moment.now ∧
      Revocations.perform { state with now := moment.now } moment.fails step = (answer, later) := by
  by_cases early : moment.now < state.now
  · simp [Revocations.serve, early] at served
  · simp only [Revocations.serve, if_neg early, Option.some.injEq] at served
    exact ⟨by omega, served⟩

theorem serve_now {answer : step.Answer} (served : Revocations.serve state step moment = some (answer, later)) :
    state.now ≤ later.now ∧ later.now = moment.now := by
  obtain ⟨forward, performed⟩ := serve_performs served
  have same := perform_now { state with now := moment.now } moment.fails step
  rw [performed] at same
  exact ⟨forward.trans (le_of_eq same.symm), same⟩

theorem serve_cache {answer : step.Answer}
    (served : Revocations.serve state step moment = some (answer, later)) {cached : CachedToken}
    (member : cached ∈ later.cache) :
    cached ∈ state.cache ∨ (∃ pod jti, step = .cacheRevoked pod jti ∧ cached = ⟨pod, jti, ⟨true, later.now⟩⟩) ∨
      step = .cacheAnswer cached.pod cached.jti cached.entry := by
  obtain ⟨-, performed⟩ := serve_performs served
  rw [(serve_now served).2]
  have held : cached ∈ (Revocations.perform { state with now := moment.now } moment.fails step).2.cache := by
    rw [performed]
    exact member
  exact perform_cache held

/-- Nothing that is known was learnt later than now. -/
structure Timely (crowd : RevocationCalls) : Prop where
  cache : ∀ cached ∈ crowd.shared.cache, cached.entry.cachedAt ≤ crowd.shared.now
  told : ∀ member ∈ crowd.members, ∀ pod jti consulted,
    ⟨.consult pod jti, consulted⟩ ∈ member.said → consulted.now ≤ crowd.shared.now ∧
      ∀ entry ∈ consulted.cached, entry.cachedAt ≤ crowd.shared.now

theorem serve_consult {pod : Nat} {consulted : Consulted}
    (served : Revocations.serve state (.consult pod jti) moment = some (consulted, later)) :
    later.cache = state.cache ∧ consulted = ⟨later.now, state.cached? pod jti⟩ := by
  obtain ⟨-, performed⟩ := serve_performs served
  cases performed
  exact ⟨rfl, rfl⟩

theorem cached?_mem {entry : CacheEntry} (found : state.cached? pod jti = some entry) :
    ⟨pod, jti, entry⟩ ∈ state.cache := by
  obtain ⟨cached, held, rfl⟩ := Option.map_eq_some_iff.mp found
  have same := List.find?_some held
  simp only [CachedToken.isFor, Bool.and_eq_true, decide_eq_true_eq] at same
  obtain ⟨rfl, rfl⟩ := same
  exact List.mem_of_find?_eq_some held

theorem timely (reached : revocationStore.Reachable allowed crowd) : Timely crowd := by
  refine reached.invariant ?_ ?_
  · intro crowd starts
    refine ⟨?_, ?_⟩
    · intro cached held
      rw [starts.1.2] at held
      cases held
    · intro member present
      rw [starts.2] at present
      cases present
  · intro before event after reached timely _ stepped
    rcases Crowd.step_cases stepped with ⟨command, rfl, rfl⟩ |
      ⟨place, moment, command, said, request, next, answer, shared, rfl, found, served, rfl⟩
    · refine ⟨timely.cache, ?_⟩
      intro member present
      rcases List.mem_append.mp present with old | new
      · exact timely.told member old
      · rw [List.mem_singleton.mp new]
        intro _ _ _ heard
        cases heard
    · have forward := (serve_now served).1
      have present := List.mem_of_getElem? found
      have abiding := abides reached present
      refine ⟨?_, ?_⟩
      · intro cached held
        rcases serve_cache served held with old | ⟨pod, jti, -, rfl⟩ | rfl
        · exact (timely.cache cached old).trans forward
        · exact le_refl _
        · obtain ⟨-, consulted, heard, same⟩ := abiding.1
          have told := (timely.told _ present _ _ consulted heard).1
          rw [← same]
          exact told.trans forward
      · intro member among pod jti consulted heard
        have old : ∀ member ∈ before.members, ⟨.consult pod jti, consulted⟩ ∈ member.said →
            consulted.now ≤ shared.now ∧
              ∀ entry ∈ consulted.cached, entry.cachedAt ≤ shared.now := by
          intro member among heard
          obtain ⟨asked, entries⟩ := timely.told member among pod jti consulted heard
          exact ⟨asked.trans forward, fun entry known => (entries entry known).trans forward⟩
        rcases List.mem_or_eq_of_mem_set among with among | rfl
        · exact old member among heard
        · rcases List.mem_cons.mp heard with same | heard
          · cases same
            obtain ⟨-, rfl⟩ := serve_consult served
            refine ⟨le_refl _, ?_⟩
            intro entry known
            exact (timely.cache _ (cached?_mem known)).trans forward
          · exact old _ present heard

/-- The insertion of the revocation has been committed. -/
def Committed (crowd : RevocationCalls) (jti : String) (expiresAt committedAt : Int) : Prop :=
  ∃ member ∈ crowd.members, ⟨.insertRevoked jti expiresAt, some committedAt⟩ ∈ member.said

/-- Whoever holds that the token is not revoked began to ask before the revocation. -/
structure Overtaken (jti : String) (expiresAt committedAt : Int) (crowd : RevocationCalls) :
    Prop where
  held : Held crowd.shared jti expiresAt
  cache : ∀ cached ∈ crowd.shared.cache, cached.jti = jti → cached.entry.revoked = false →
    cached.entry.cachedAt ≤ committedAt
  consulted : ∀ member ∈ crowd.members, ∀ pod consulted,
    ⟨.consult pod jti, consulted⟩ ∈ member.said →
      (∀ entry ∈ consulted.cached, entry.revoked = false → entry.cachedAt ≤ committedAt) ∧
        (⟨.selectRevoked jti, some false⟩ ∈ member.said → consulted.now ≤ committedAt)

theorem serve_held (held : Held state jti expiresAt) {answer : step.Answer}
    (served : Revocations.serve state step moment = some (answer, later))
    (alive : later.now < expiresAt) : Held later jti expiresAt := by
  obtain ⟨-, performed⟩ := serve_performs served
  have moved : Held { state with now := moment.now } jti expiresAt := held
  have kept := moved.perform ((serve_now served).2 ▸ alive) moment.fails step
  rw [performed] at kept
  exact kept

theorem serve_selected {revoked : Bool}
    (served : Revocations.serve state (.selectRevoked jti) moment = some (some revoked, later)) :
    later.revokedTokens = state.revokedTokens ∧ revoked = later.isRevoked jti := by
  obtain ⟨-, performed⟩ := serve_performs served
  simp only [Revocations.perform, Prod.mk.injEq] at performed
  obtain ⟨selected, rfl⟩ := performed
  split at selected
  · cases selected
  · exact ⟨rfl, (Option.some.inj selected).symm⟩

theorem serve_selected_held (held : Held state jti expiresAt) {revoked : Bool}
    (served : Revocations.serve state (.selectRevoked jti) moment = some (some revoked, later))
    (alive : later.now < expiresAt) : revoked = true := by
  rw [(serve_selected served).2]
  exact (serve_held held served alive).isRevoked alive

theorem serve_inserted {committedAt : Int}
    (served : Revocations.serve state (.insertRevoked jti expiresAt) moment = some (some committedAt, later)) :
    Held later jti expiresAt ∧ later.cache = state.cache ∧ committedAt = later.now := by
  obtain ⟨-, performed⟩ := serve_performs served
  simp only [Revocations.perform] at performed
  split at performed
  · cases performed
  · simp only [Prod.mk.injEq, Option.some.injEq] at performed
    obtain ⟨rfl, rfl⟩ := performed
    exact ⟨held_insert _ _ _, rfl, rfl⟩

section Answered

variable {place : Nat} {command : RevocationCommand} {said : Exchanges}
variable {next : step.Answer → RevocationCall} {answer : step.Answer}
variable {committedAt : Int}

/-- The crowd once the member at the place has been answered. -/
abbrev answered (crowd : RevocationCalls) (place : Nat) (command : RevocationCommand)
    (said : Exchanges) (step : RevocationStep) (next : step.Answer → RevocationCall)
    (answer : step.Answer) (later : Revocations) : RevocationCalls :=
  ⟨later, crowd.members.set place ⟨command, ⟨step, answer⟩ :: said, next answer⟩⟩

theorem Overtaken.kept (overtaken : Overtaken jti expiresAt committedAt crowd)
    (reached : revocationStore.Reachable allowed crowd)
    (found : crowd.members[place]? = some ⟨command, said, .ask step next⟩)
    (served : Revocations.serve crowd.shared step moment = some (answer, later)) (alive : later.now < expiresAt) :
    Overtaken jti expiresAt committedAt (answered crowd place command said step next answer later) := by
  have present := List.mem_of_getElem? found
  have abiding := abides reached present
  refine ⟨serve_held overtaken.held served alive, ?_, ?_⟩
  · intro cached held same unrevoked
    rcases serve_cache served held with old | ⟨pod, other, -, rfl⟩ | rfl
    · exact overtaken.cache cached old same unrevoked
    · cases unrevoked
    · obtain ⟨selected, consulted, heard, begun⟩ := abiding.1
      rw [same] at heard selected
      rw [unrevoked] at selected
      rw [← begun]
      exact (overtaken.consulted _ present _ _ heard).2 selected
  · intro member among pod consulted heard
    rcases List.mem_or_eq_of_mem_set among with among | rfl
    · exact overtaken.consulted member among pod consulted heard
    · rcases List.mem_cons.mp heard with same | heard
      · cases same
        obtain ⟨-, rfl⟩ := serve_consult served
        have first : said = [] := abiding.1
        refine ⟨?_, ?_⟩
        · intro entry known unrevoked
          exact overtaken.cache _ (cached?_mem known) rfl unrevoked
        · intro selected
          rw [first] at selected
          cases selected with
          | tail _ none_ => cases none_
      · obtain ⟨entries, began⟩ := overtaken.consulted _ present pod consulted heard
        refine ⟨entries, ?_⟩
        intro selected
        rcases List.mem_cons.mp selected with same | selected
        · cases same
          have refuted := serve_selected_held overtaken.held served alive
          cases refuted
        · exact began selected

theorem overtaken_of_commit (timely : Timely crowd) {next : Option Int → RevocationCall}
    (found : crowd.members[place]? = some ⟨command, said, .ask (.insertRevoked jti expiresAt) next⟩)
    (served : Revocations.serve crowd.shared (.insertRevoked jti expiresAt) moment = some (some committedAt, later)) :
    Overtaken jti expiresAt committedAt
      (answered crowd place command said (.insertRevoked jti expiresAt) next (some committedAt) later) := by
  have forward := (serve_now served).1
  obtain ⟨held, cache, rfl⟩ := serve_inserted served
  refine ⟨held, ?_, ?_⟩
  · intro cached known _ _
    rw [cache] at known
    exact (timely.cache cached known).trans forward
  · intro member among pod consulted heard
    have old : ∃ member ∈ crowd.members, ⟨.consult pod jti, consulted⟩ ∈ member.said := by
      rcases List.mem_or_eq_of_mem_set among with among | rfl
      · exact ⟨member, among, heard⟩
      · rcases List.mem_cons.mp heard with same | heard
        · cases same
        · exact ⟨_, List.mem_of_getElem? found, heard⟩
    obtain ⟨member, among, heard⟩ := old
    obtain ⟨asked, entries⟩ := timely.told member among pod jti consulted heard
    exact ⟨fun entry known _ => (entries entry known).trans forward, fun _ => asked.trans forward⟩

end Answered

theorem overtaken (reached : revocationStore.Reachable allowed crowd) :
    ∀ jti expiresAt committedAt, Committed crowd jti expiresAt committedAt →
      crowd.shared.now < expiresAt → Overtaken jti expiresAt committedAt crowd := by
  let settled (crowd : RevocationCalls) : Prop := ∀ jti expiresAt committedAt,
    Committed crowd jti expiresAt committedAt → crowd.shared.now < expiresAt →
      Overtaken jti expiresAt committedAt crowd
  change settled crowd
  refine reached.invariant ?_ ?_
  · intro crowd starts jti expiresAt committedAt ⟨member, present, _⟩
    rw [starts.2] at present
    cases present
  · intro before event after reached settled _ stepped jti expiresAt committedAt committed alive
    obtain ⟨member, present, inserted⟩ := committed
    rcases Crowd.step_cases stepped with ⟨command, rfl, rfl⟩ |
      ⟨place, moment, command, said, request, next, answer, shared, rfl, found, served, rfl⟩
    · have old : Overtaken jti expiresAt committedAt before := by
        rcases List.mem_append.mp present with old | new
        · exact settled jti expiresAt committedAt ⟨member, old, inserted⟩ alive
        · rw [List.mem_singleton.mp new] at inserted
          cases inserted
      refine ⟨old.held, old.cache, ?_⟩
      intro member present pod consulted heard
      rcases List.mem_append.mp present with among | new
      · exact old.consulted member among pod consulted heard
      · rw [List.mem_singleton.mp new] at heard
        cases heard
    · have aliveBefore : before.shared.now < expiresAt :=
        lt_of_le_of_lt (serve_now served).1 alive
      have kept : Committed before jti expiresAt committedAt → Overtaken jti expiresAt committedAt
            (answered before place command said request next answer shared) := fun committed =>
        (settled jti expiresAt committedAt committed aliveBefore).kept reached found served alive
      rcases List.mem_or_eq_of_mem_set present with old | rfl
      · exact kept ⟨member, old, inserted⟩
      · rcases List.mem_cons.mp inserted with same | earlier
        · cases same
          exact overtaken_of_commit (timely reached) found served
        · exact kept ⟨_, List.mem_of_getElem? found, earlier⟩

/-- All statements work. -/
def working : Discipline RevocationCalls (CrowdEvent RevocationCommand Moment) :=
  Crowd.obeys fun _ _ _ moment => moment.fails = false

instance (crowd : RevocationCalls) (event : CrowdEvent RevocationCommand Moment) :
    Decidable (working crowd event) :=
  inferInstanceAs (Decidable (Crowd.obeys _ crowd event))

theorem select_answered (reached : revocationStore.Reachable working crowd)
    (present : member ∈ crowd.members) (jti : String) : ⟨.selectRevoked jti, none⟩ ∉ member.said := by
  let assumes (_ : RevocationCommand) (exchange : Exchange RevocationStep.Answer) : Prop :=
    ∀ jti, exchange ≠ ⟨.selectRevoked jti, none⟩
  have heard : ∀ member ∈ crowd.members, ∀ exchange ∈ member.said, assumes member.command exchange := by
    refine Crowd.heard_lawful ?_ reached
    intro state command request moment answer later works served jti failed
    cases failed
    obtain ⟨-, performed⟩ := serve_performs served
    simp [Revocations.perform, works] at performed
  intro failed
  exact heard member present _ failed jti rfl

/-- Whoever asks a minute after a revocation was committed learns of it. -/
def RevokedEverywhere (jti : String) (crowd : RevocationCalls) : Prop :=
  ∀ expiresAt committedAt, Committed crowd jti expiresAt committedAt →
    crowd.shared.now < expiresAt →
      ∀ member ∈ crowd.members, ∀ pod consulted revoked, member.command = .isRevoked pod jti →
        ⟨.consult pod jti, consulted⟩ ∈ member.said →
          committedAt + CACHE_TTL_MS ≤ consulted.now →
            member.rest = .done (.answer revoked) → revoked = true

theorem fresh_cases {consulted : Consulted} {entry : CacheEntry} (fresh : consulted.fresh? = some entry) :
    consulted.cached = some entry ∧ consulted.now - entry.cachedAt < CACHE_TTL_MS := by
  simpa [Consulted.fresh?, Option.filter_eq_some_iff] using fresh

theorem revoked_everywhere (named : jti ≠ "")
    (reached : revocationStore.Reachable working crowd) : RevokedEverywhere jti crowd := by
  intro expiresAt committedAt committed alive member present pod consulted revoked command heard late ended
  have settled := overtaken reached jti expiresAt committedAt committed alive
  have ends := abides reached present
  rw [command, ended] at ends
  rcases ends with unnamed | ⟨asked, -, only, ends⟩
  · exact absurd unnamed named
  · obtain ⟨entries, began⟩ := settled.consulted member present pod consulted heard
    rw [← only consulted heard] at ends
    have minute : 0 < CACHE_TTL_MS := by decide
    by_contra unrevoked
    have refuted : revoked = false := by simpa using unrevoked
    subst refuted
    rcases ends with ⟨entry, fresh, same⟩ | selected | failed
    · obtain ⟨cached, young⟩ := fresh_cases fresh
      have old := entries entry cached same.symm
      omega
    · have old := began selected
      omega
    · exact select_answered reached present jti failed

def isRevokedBy (pod : Nat) (jti : String) (now : Int)
    (member : Member RevocationCommand RevocationStep.Answer RevocationReply) : Bool :=
  match member.command, member.rest with
  | .revoke revoker revoked expiresAt, .done .revoked =>
    decide (revoker = pod) && decide (revoked = jti) && decide (now < expiresAt)
  | _, _ => false

/-- A revocation by this process that has resolved and lasts beyond now. -/
def isRevokedHere (pod : Nat) (jti : String) (now : Int) (crowd : RevocationCalls) : Bool :=
  crowd.members.any (isRevokedBy pod jti now)

/-- Where this process has revoked the token, no lookup that found it unrevoked within the last
minute is written down, and the cache alone is asked only while it knows. -/
def Careful (pod : Nat) (jti : String) (now : Int) (crowd : RevocationCalls)
    (command : RevocationCommand) : RevocationStep → Prop
  | .cacheAnswer asker asked entry => asker = pod → asked = jti → entry.revoked = false →
      isRevokedHere pod jti now crowd = true → CACHE_TTL_MS ≤ now - entry.cachedAt
  | .consult asker asked => asker = pod → asked = jti → command = .isRevokedCached pod jti →
      isRevokedHere pod jti now crowd = true →
        (Consulted.mk now (crowd.shared.cached? pod jti)).fresh?.isSome = true
  | _ => True

def steady (pod : Nat) (jti : String) : Discipline RevocationCalls (CrowdEvent RevocationCommand Moment)
  | _, .join _ => True
  | crowd, .answer place moment => moment.fails = false ∧
      ∀ asked ∈ crowd.asking place, Careful pod jti moment.now crowd asked.1 asked.2

instance (pod : Nat) (jti : String) (now : Int) (crowd : RevocationCalls)
    (command : RevocationCommand) (step : RevocationStep) :
    Decidable (Careful pod jti now crowd command step) :=
  match step with
  | .cacheAnswer .. | .consult .. => inferInstanceAs (Decidable (_ → _ → _ → _ → _))
  | .insertRevoked .. | .selectRevoked .. | .deleteExpired | .cacheRevoked .. | .evictStale .. =>
    .isTrue trivial

instance (pod : Nat) (jti : String) (crowd : RevocationCalls)
    (event : CrowdEvent RevocationCommand Moment) : Decidable (steady pod jti crowd event) :=
  match event with
  | .join _ => .isTrue trivial
  | .answer _ _ => inferInstanceAs (Decidable (_ ∧ ∀ _ ∈ _, _))

theorem steady_working (crowd : RevocationCalls) (event : CrowdEvent RevocationCommand Moment)
    (permitted : steady pod jti crowd event) : working crowd event := by
  cases event with
  | join command => exact trivial
  | answer place moment => exact fun _ _ => permitted.1

theorem isRevokedBy_iff {now : Int} :
    isRevokedBy pod jti now member = true ↔
      ∃ expiresAt, member.command = .revoke pod jti expiresAt ∧ member.rest = .done .revoked ∧ now < expiresAt := by
  constructor
  · intro holds
    unfold isRevokedBy at holds
    split at holds
    · rename_i expiresAt command ended
      simp only [Bool.and_eq_true, decide_eq_true_eq] at holds
      obtain ⟨⟨rfl, rfl⟩, alive⟩ := holds
      exact ⟨expiresAt, command, ended, alive⟩
    · cases holds
  · intro ⟨expiresAt, command, ended, alive⟩
    simp [isRevokedBy, command, ended, alive]

theorem isRevokedHere_iff {now : Int} :
    isRevokedHere pod jti now crowd = true ↔
      ∃ member ∈ crowd.members, ∃ expiresAt, member.command = .revoke pod jti expiresAt ∧
        member.rest = .done .revoked ∧ now < expiresAt := by
  simp only [isRevokedHere, List.any_eq_true, isRevokedBy_iff]

/-- What the cache of a process that has revoked the token still says. -/
def Switched (pod : Nat) (jti : String) (crowd : RevocationCalls) : Prop :=
  isRevokedHere pod jti crowd.shared.now crowd = true →
    ∀ cached ∈ crowd.shared.cache, cached.pod = pod → cached.jti = jti →
      cached.entry.revoked = true ∨ CACHE_TTL_MS ≤ crowd.shared.now - cached.entry.cachedAt

theorem switched (reached : revocationStore.Reachable (steady pod jti) crowd) : Switched pod jti crowd := by
  refine reached.invariant ?_ ?_
  · intro crowd starts _ cached held
    rw [starts.1.2] at held
    cases held
  · intro before event after reached switched permitted stepped live cached held ours same
    have later := reached.step permitted stepped
    obtain ⟨member, present, expiresAt, command, ended, alive⟩ := isRevokedHere_iff.mp live
    have ends := abides later present
    rw [command, ended] at ends
    obtain ⟨earlier, committedAt, said, -⟩ := ends
    rcases Crowd.step_cases stepped with ⟨joining, rfl, rfl⟩ |
      ⟨place, moment, asker, heard, request, next, answer, shared, rfl, found, served, rfl⟩
    · rcases List.mem_append.mp present with old | new
      · exact switched (isRevokedHere_iff.mpr ⟨member, old, expiresAt, command, ended, alive⟩) cached held ours same
      · rw [List.mem_singleton.mp new] at said
        cases said
    · have forward := serve_now served
      rcases List.mem_or_eq_of_mem_set present with old | rfl
      · have liveBefore (now : Int) (early : now ≤ shared.now) : isRevokedHere pod jti now before = true :=
          isRevokedHere_iff.mpr ⟨member, old, expiresAt, command, ended, lt_of_le_of_lt early alive⟩
        rcases serve_cache served held with known | ⟨revoker, revoked, -, rfl⟩ | rfl
        · refine (switched (liveBefore _ forward.1) cached known ours same).imp_right ?_
          intro stale
          have aged := forward.1
          simp only at aged ⊢
          omega
        · exact .inl rfl
        · cases unrevoked : cached.entry.revoked with
          | true => exact .inl rfl
          | false =>
            have careful := permitted.2 _ (Crowd.asking_of_found found) ours same unrevoked
              (liveBefore _ (le_of_eq forward.2.symm))
            rw [← forward.2] at careful
            exact .inr careful
      · cases said
        obtain ⟨-, performed⟩ := serve_performs served
        cases performed
        rcases mem_upsert held with rfl | ⟨-, other⟩
        · exact .inl rfl
        · simp [CachedToken.isFor, ours, same] at other

/-- What a call that began after the revocation can have been told. -/
structure Truthful (pod : Nat) (jti : String)
    (member : Member RevocationCommand RevocationStep.Answer RevocationReply) : Prop where
  consulted : ∀ consulted, ⟨.consult pod jti, consulted⟩ ∈ member.said →
    (∀ entry, consulted.fresh? = some entry → entry.revoked = true) ∧
      (member.command = .isRevokedCached pod jti → consulted.fresh?.isSome = true)
  selected : ⟨.selectRevoked jti, some false⟩ ∉ member.said

theorem truthful_of_silent (silent : member.said = []) : Truthful pod jti member := by
  refine ⟨?_, ?_⟩
  · intro consulted heard
    rw [silent] at heard
    cases heard
  · rw [silent]
    exact List.not_mem_nil

/-- The process has revoked the token, until then. -/
def Resolved (crowd : RevocationCalls) (pod : Nat) (jti : String) (expiresAt : Int) : Prop :=
  ∃ member ∈ crowd.members, member.command = .revoke pod jti expiresAt ∧
    member.rest = .done .revoked

theorem Resolved.stays (resolved : Resolved crowd pod jti expiresAt)
    (later : revocationStore.Later allowed crowd after) : Resolved after pod jti expiresAt := by
  obtain ⟨member, present, command, ended⟩ := resolved
  exact ⟨member, Crowd.ended_later later present ended, command, ended⟩

theorem Resolved.live (resolved : Resolved crowd pod jti expiresAt) {now : Int}
    (alive : now < expiresAt) : isRevokedHere pod jti now crowd = true := by
  obtain ⟨member, present, command, ended⟩ := resolved
  exact isRevokedHere_iff.mpr ⟨member, present, expiresAt, command, ended, alive⟩

theorem Resolved.held (resolved : Resolved crowd pod jti expiresAt)
    (reached : revocationStore.Reachable allowed crowd) (alive : crowd.shared.now < expiresAt) :
    Held crowd.shared jti expiresAt := by
  obtain ⟨member, present, command, ended⟩ := resolved
  have ends := abides reached present
  rw [command, ended] at ends
  obtain ⟨earlier, committedAt, said, inserted⟩ := ends
  have committed : Committed crowd jti expiresAt committedAt := by
    refine ⟨member, present, ?_⟩
    rw [said]
    exact List.mem_cons_of_mem _ inserted
  exact (overtaken reached jti expiresAt committedAt committed alive).held

theorem Truthful.answered {place : Nat} {command : RevocationCommand} {said : Exchanges}
    {next : step.Answer → RevocationCall} {answer : step.Answer}
    (truthful : Truthful pod jti ⟨command, said, .ask step next⟩)
    (reached : revocationStore.Reachable (steady pod jti) crowd)
    (permitted : steady pod jti crowd (.answer place moment))
    (found : crowd.members[place]? = some ⟨command, said, .ask step next⟩)
    (served : Revocations.serve crowd.shared step moment = some (answer, later))
    (resolved : Resolved crowd pod jti expiresAt) (alive : later.now < expiresAt) :
    Truthful pod jti ⟨command, ⟨step, answer⟩ :: said, next answer⟩ := by
  have forward := serve_now served
  have aliveBefore := lt_of_le_of_lt forward.1 alive
  refine ⟨?_, ?_⟩
  · intro consulted heard
    rcases List.mem_cons.mp heard with same | heard
    · cases same
      obtain ⟨-, rfl⟩ := serve_consult served
      refine ⟨?_, ?_⟩
      · intro entry fresh
        obtain ⟨cached, young⟩ := fresh_cases fresh
        rcases switched reached (resolved.live aliveBefore) _ (cached?_mem cached) rfl rfl with
          positive | stale
        · exact positive
        · have aged := forward.1
          simp only at young stale
          omega
      · intro cachedOnly
        rw [forward.2] at alive ⊢
        exact permitted.2 _ (Crowd.asking_of_found found) rfl rfl cachedOnly (resolved.live alive)
    · exact truthful.consulted consulted heard
  · intro heard
    rcases List.mem_cons.mp heard with same | heard
    · cases same
      have refuted := serve_selected_held (resolved.held reached aliveBefore) served alive
      cases refuted
    · exact truthful.selected heard

theorem truthful_later {before : RevocationCalls} (reached : revocationStore.Reachable (steady pod jti) before)
    (resolved : Resolved before pod jti expiresAt)
    (later : revocationStore.Later (steady pod jti) before after) {place : Nat}
    (unbegun : ∀ member, before.members[place]? = some member → member.said = []) :
    after.shared.now < expiresAt → ∀ member, after.members[place]? = some member → Truthful pod jti member := by
  induction later with
  | refl => exact fun _ member found => truthful_of_silent (unbegun member found)
  | @tail crowd after earlier moved ih =>
    obtain ⟨event, permitted, stepped⟩ := moved
    intro alive member found
    rcases Crowd.step_cases stepped with ⟨command, rfl, rfl⟩ |
      ⟨index, moment, command, said, request, next, answer, shared, rfl, asking, served, rfl⟩
    · rcases getElem?_append_singleton_cases found with ⟨-, rfl⟩ | old
      · exact truthful_of_silent rfl
      · exact ih alive member old
    · have aliveBefore := lt_of_le_of_lt (serve_now served).1 alive
      rcases getElem?_set_cases found with ⟨rfl, rfl⟩ | ⟨-, old⟩
      · exact (ih aliveBefore _ asking).answered (reached.later earlier) permitted asking served
          (resolved.stays earlier) alive
      · exact ih aliveBefore member old

/-- Once this process has revoked the token, its calls that begin from then on say so. -/
def StaysOn (pod : Nat) (jti : String) (before after : RevocationCalls) : Prop :=
  ∀ expiresAt, Resolved before pod jti expiresAt → after.shared.now < expiresAt →
    ∀ (place : Nat) (member : Member RevocationCommand RevocationStep.Answer RevocationReply)
      (revoked : Bool), after.members[place]? = some member →
      (∀ earlier, before.members[place]? = some earlier → earlier.said = []) →
        member.command = .isRevoked pod jti ∨ member.command = .isRevokedCached pod jti →
          member.rest = .done (.answer revoked) → revoked = true

theorem stays_on (named : jti ≠ "") {before : RevocationCalls}
    (reached : revocationStore.Reachable (steady pod jti) before)
    (later : revocationStore.Later (steady pod jti) before after) : StaysOn pod jti before after := by
  intro expiresAt resolved alive place member revoked found unbegun command ended
  have truthful := truthful_later reached resolved later unbegun alive member found
  have present := List.mem_of_getElem? found
  have ends := abides (reached.later later) present
  rw [ended] at ends
  rcases command with command | command
  · rw [command] at ends
    rcases ends with unnamed | ⟨asked, heard, -, ends⟩
    · exact absurd unnamed named
    · rcases ends with ⟨entry, fresh, rfl⟩ | selected | failed
      · exact (truthful.consulted asked heard).1 entry fresh
      · cases revoked with
        | true => rfl
        | false => exact absurd selected truthful.selected
      · have working := (reached.later later).mono steady_working
        exact absurd failed (select_answered working present jti)
  · rw [command] at ends
    rcases ends with unnamed | ⟨asked, heard, rfl⟩
    · exact absurd unnamed named
    · obtain ⟨positive, known⟩ := truthful.consulted asked heard
      obtain ⟨entry, fresh⟩ := Option.isSome_iff_exists.mp (known command)
      rw [fresh, Option.any_some]
      exact positive entry fresh

theorem kill_switch_stays_on (pod : Nat) (named : jti ≠ "") :
    (∀ before after, revocationStore.Reachable (steady pod jti) before →
      revocationStore.Later (steady pod jti) before after → StaysOn pod jti before after) ∧
    ∀ crowd, revocationStore.Reachable working crowd → RevokedEverywhere jti crowd :=
  ⟨fun _ _ reached later => stays_on named reached later,
    fun _ reached => revoked_everywhere named reached⟩

/-- A process revokes a token that it has looked up before, and looks it up again. -/
def revokedOnce : List (CrowdEvent RevocationCommand Moment) :=
  [.join (.isRevoked 0 "j"), .answer 0 { now := 0 }, .answer 0 { now := 0 },
    .answer 0 { now := 0 }, .join (.revoke 0 "j" 100), .answer 1 { now := 1 },
    .answer 1 { now := 1 }]

def askedAgain : List (CrowdEvent RevocationCommand Moment) :=
  [.join (.isRevoked 0 "j"), .answer 2 { now := 3 }]

/-- The member at the place has been answered so. -/
def saidAt (place : Nat) (revoked : Bool) (crowd : RevocationCalls) : Bool :=
  match crowd.members[place]? with
  | some ⟨.isRevoked 0 "j", _, .done (.answer answer)⟩ => answer == revoked
  | _ => false

theorem kill_switch_stays_on_revoked :
    ∃ before after, isRevokedHere 0 "j" 99 before = true ∧ saidAt 2 true after = true ∧
      StaysOn 0 "j" before after := by
  have refuted : ¬ ∀ before after, revocationStore.Reachable (steady 0 "j") before →
      revocationStore.Later (steady 0 "j") before after →
        (isRevokedHere 0 "j" 99 before && saidAt 2 true after) = false :=
    Machine.refutes_later_of_replay { shared := {}, members := [] } revokedOnce askedAgain
      ⟨⟨rfl, rfl⟩, rfl⟩ (by decide +kernel)
  by_contra missing
  apply refuted
  intro before after reached later
  by_contra tested
  simp only [Bool.not_eq_false, Bool.and_eq_true] at tested
  exact missing ⟨before, after, tested.1, tested.2, (kill_switch_stays_on 0 (by decide)).1 before after reached later⟩

/-- The lookup has read the table before the revocation, and writes its answer down after it. -/
def overtakenLookup : List (CrowdEvent RevocationCommand Moment) :=
  [.join (.isRevoked 0 "j"), .answer 0 { now := 0 }, .answer 0 { now := 0 },
    .join (.revoke 0 "j" 100), .answer 1 { now := 1 }, .answer 1 { now := 1 }]

theorem revocation_forgotten :
    ¬ ∀ before after, revocationStore.Reachable working before →
      revocationStore.Later working before after → StaysOn 0 "j" before after := by
  intro always
  have refuted : ¬ ∀ before after, revocationStore.Reachable working before →
      revocationStore.Later working before after →
        (isRevokedHere 0 "j" 99 before && before.members[2]?.isNone && saidAt 2 false after &&
          decide (after.shared.now = 3)) = false :=
    Machine.refutes_later_of_replay { shared := {}, members := [] } overtakenLookup
      (.answer 0 { now := 2 } :: askedAgain) ⟨⟨rfl, rfl⟩, rfl⟩ (by decide +kernel)
  apply refuted
  intro before after reached later
  by_contra tested
  simp only [Bool.not_eq_false, Bool.and_eq_true, Option.isNone_iff_eq_none, decide_eq_true_eq] at tested
  obtain ⟨⟨⟨live, absent⟩, refused⟩, time⟩ := tested
  obtain ⟨member, present, expiresAt, command, ended, alive⟩ := isRevokedHere_iff.mp live
  unfold saidAt at refused
  split at refused
  · rename_i said answer found
    have same : answer = false := by simpa using refused
    have answered := always before after reached later expiresAt ⟨member, present, command, ended⟩
      (by omega) 2 _ answer found (by simp [absent]) (.inl rfl) rfl
    rw [same] at answered
    cases answered
  · cases refused

end Lobu.Auth
