import Lobu.OAuth.Chains

namespace Lobu.OAuth

open Lobu.Foundation

/-! # Grants do not widen -/

def StoredOAuthToken.unrevoked (row : StoredOAuthToken) : StoredOAuthToken :=
  { row with revokedAt := none }

theorem StoredOAuthToken.unrevoked_of_live {row : StoredOAuthToken} (live : row.revokedAt = none) :
    row.unrevoked = row := by
  cases row
  cases live
  rfl

/-- The rows that a statement inserts. -/
def Statement.newTokens : Statement → List StoredOAuthToken
  | .insertTokens rows => rows
  | .rotate _ rows => rows
  | _ => []

section Tables

variable {database after : Database} {statement : Statement} {choice : Choice}
variable {answer : statement.Answer} {token : StoredOAuthToken}

/-- The row of a token before a revocation. -/
structure Outlives (old token : StoredOAuthToken) : Prop where
  same : old.unrevoked = token.unrevoked
  revoked : old.revokedAt ≠ none → token.revokedAt ≠ none

theorem Outlives.refl (token : StoredOAuthToken) : Outlives token token :=
  ⟨rfl, id⟩

theorem Outlives.id {old : StoredOAuthToken} (outlives : Outlives old token) : old.id = token.id := by
  have same : old.unrevoked.id = token.unrevoked.id := by rw [outlives.same]
  exact same

theorem Outlives.trans {old later : StoredOAuthToken} (first : Outlives old token)
    (second : Outlives token later) : Outlives old later :=
  ⟨first.same.trans second.same, fun revoked => second.revoked (first.revoked revoked)⟩

theorem revocation_outlives (selects : StoredOAuthToken → Bool) (now : Nat) (row : StoredOAuthToken) :
    Outlives row ((revocation selects now).onRow row) := by
  rw [RowUpdate.onRow]
  split
  · exact ⟨rfl, fun _ => Option.some_ne_none _⟩
  · exact .refl row

theorem mem_revoke {selects : StoredOAuthToken → Bool} {now : Nat}
    (member : token ∈ (database.revoke selects now).tokens) :
    ∃ old ∈ database.tokens, Outlives old token ∧ (selects old = true → token.revokedAt ≠ none) := by
  obtain ⟨old, present, rfl⟩ := RowUpdate.mem_run.mp member
  refine ⟨old, present, revocation_outlives selects now old, fun selected => ?_⟩
  have picked : (revocation selects now).selects old = true := selected
  rw [RowUpdate.onRow_selected picked]
  exact Option.some_ne_none _

/-- The table that a statement writes. -/
inductive Written where
  | codes
  | devices
  | tokens
  | none

def Statement.written : Statement → Written
  | .insertCode _ => .codes
  | .useCode _ => .codes
  | .insertTokens _ => .tokens
  | .rotate .. => .tokens
  | .revokeToken .. => .tokens
  | .revokeUser _ => .tokens
  | .revokeClient .. => .tokens
  | .insertDevice _ => .devices
  | .approveDevice .. => .devices
  | .denyDevice _ => .devices
  | .claimDevice .. => .devices
  | _ => .none

section

variable (served : database.serve statement choice = some (answer, after))
include served

theorem serve_kept :
    (statement.written ≠ .codes → after.codes = database.codes) ∧
      (statement.written ≠ .devices → after.devices = database.devices) ∧
      (statement.written ≠ .tokens → after.tokens = database.tokens) := by
  cases statement with
  | insertTokens | rotate | insertCode | insertDevice =>
    simp only [Database.serve] at served
    split at served <;> cases served
    simp [Statement.written, Database.revoke, Database.addTokens]
  | _ =>
    cases served
    simp [Statement.written, Database.revoke]

theorem codes_kept (other : statement.written ≠ .codes) : after.codes = database.codes :=
  (serve_kept served).1 other

theorem devices_kept (other : statement.written ≠ .devices) : after.devices = database.devices :=
  (serve_kept served).2.1 other

theorem tokens_kept (other : statement.written ≠ .tokens) : after.tokens = database.tokens :=
  (serve_kept served).2.2 other

/-- Rows that are there stay, revoked at most; new ones come after them under ids of their own. -/
theorem tokens_written : ∃ kept : StoredOAuthToken → StoredOAuthToken, (∀ row, Outlives row (kept row)) ∧
    after.tokens = database.tokens.map kept ++ statement.newTokens ∧
      (statement.newTokens = [] ∨ ¬ database.refuses statement.newTokens = true) := by
  cases statement with
  | insertTokens rows =>
    simp only [Database.serve] at served
    split at served <;> cases served
    exact ⟨fun row => row, .refl, by simp [Database.addTokens, Statement.newTokens], .inr ‹_›⟩
  | rotate id rows =>
    simp only [Database.serve] at served
    split at served <;> cases served
    exact ⟨_, revocation_outlives _ _, rfl, .inr ‹_›⟩
  | revokeToken | revokeUser | revokeClient =>
    cases served
    exact ⟨_, revocation_outlives _ _, (List.append_nil _).symm, .inl rfl⟩
  | _ =>
    refine ⟨fun row => row, .refl, ?_, .inl rfl⟩
    rw [tokens_kept served (by simp [Statement.written]), List.map_id']
    exact (List.append_nil _).symm

theorem serve_tokens (member : token ∈ after.tokens) :
    (∃ old ∈ database.tokens, Outlives old token) ∨ token ∈ statement.newTokens := by
  obtain ⟨kept, outlives, written, -⟩ := tokens_written served
  rw [written, List.mem_append, List.mem_map] at member
  refine member.imp_left fun old => ?_
  obtain ⟨row, present, rfl⟩ := old
  exact ⟨row, present, outlives row⟩

end

theorem codeUse_grant (code : String) (now : Nat) (row : StoredAuthorizationCode) :
    ((codeUse code now).onRow row).code = row.code ∧ ((codeUse code now).onRow row).grant = row.grant :=
  ⟨RowUpdate.onRow_column _ (fun _ => rfl) row, RowUpdate.onRow_column _ (fun _ => rfl) row⟩

/-- Codes that are there stay, used at most; a new one has not been there. -/
theorem codes_written (served : database.serve statement choice = some (answer, after)) :
    (∃ kept : StoredAuthorizationCode → StoredAuthorizationCode, after.codes = database.codes.map kept ∧
      ∀ row, (kept row).code = row.code ∧ (kept row).grant = row.grant ∧ (row.usedAt ≠ none → kept row = row)) ∨
    ∃ new, statement = .insertCode new ∧ (∀ row ∈ database.codes, row.code ≠ new.code) ∧
      after.codes = database.codes ++ [new] := by
  cases statement with
  | insertCode new =>
    simp only [Database.serve] at served
    split at served <;> cases served
    rename_i absent
    exact .inr ⟨new, rfl, by simpa using absent, rfl⟩
  | useCode code =>
    cases served
    refine .inl ⟨_, rfl, fun row => ⟨(codeUse_grant code _ row).1, (codeUse_grant code _ row).2, fun used => ?_⟩⟩
    exact RowUpdate.onRow_skipped (by simp [codeUse, used])
  | _ =>
    refine .inl ⟨fun row => row, ?_, fun _ => ⟨rfl, rfl, fun _ => rfl⟩⟩
    rw [codes_kept served (by simp [Statement.written]), List.map_id']

theorem serve_codes {row : StoredAuthorizationCode}
    (served : database.serve statement choice = some (answer, after)) (member : row ∈ after.codes) :
    (∃ old ∈ database.codes, old.code = row.code ∧ old.grant = row.grant) ∨ statement = .insertCode row := by
  obtain ⟨kept, written, keeps⟩ | ⟨new, rfl, -, written⟩ := codes_written served
  · rw [written] at member
    obtain ⟨old, present, rfl⟩ := List.mem_map.mp member
    exact .inl ⟨old, present, (keeps old).1.symm, (keeps old).2.1.symm⟩
  · rw [written, List.mem_append, List.mem_singleton] at member
    exact member.imp (fun old => ⟨row, old, rfl, rfl⟩) fun added => by rw [added]

theorem serve_devices {row : StoredDeviceCode} (served : database.serve statement choice = some (answer, after))
    (member : row ∈ after.devices) :
    row ∈ database.devices ∨ statement = .insertDevice row ∨ row.status = .denied ∨
      ∃ old ∈ database.devices, ∃ userId organizationId scopeOverride, old.status = .pending ∧
        statement = .approveDevice old.userCode userId organizationId scopeOverride ∧
        row = (deviceApproval old.userCode userId organizationId scopeOverride choice.now).sets old ∧
        HEq answer ((database.devices.filter (pendingDevice old.userCode choice.now)).map (·.deviceCode)) ∧
        pendingDevice old.userCode choice.now old = true := by
  cases statement with
  | insertDevice new =>
    simp only [Database.serve] at served
    split at served
    · cases served
    · cases served
      rcases List.mem_append.mp member with old | added
      · exact .inl old
      · rw [List.mem_singleton.mp added]
        exact .inr (.inl rfl)
  | approveDevice userCode userId organizationId scopeOverride =>
    cases served
    obtain ⟨old, present, rfl⟩ := RowUpdate.mem_run.mp member
    rw [RowUpdate.onRow]
    split
    · rename_i selected
      have pending : old.userCode = userCode ∧ old.status = .pending ∧
          old.expiresAt > choice.now := of_decide_eq_true selected
      obtain ⟨rfl, waiting, -⟩ := pending
      exact .inr (.inr (.inr ⟨old, present, userId, organizationId, scopeOverride, waiting, rfl,
        rfl, HEq.rfl, selected⟩))
    · exact .inl present
  | denyDevice userCode =>
    cases served
    obtain ⟨old, present, rfl⟩ := RowUpdate.mem_run.mp member
    rw [RowUpdate.onRow]
    split
    · exact .inr (.inr (.inl rfl))
    · exact .inl present
  | claimDevice deviceCode clientId =>
    cases served
    exact .inl (mem_deleteWhere.mp member).1
  | _ =>
    rw [devices_kept served (by simp [Statement.written])] at member
    exact .inl member

end Tables

section Provenance

variable {hashing : Hashing} {baseUrl : String} {crowd after : Calls} {key : GrantKey}
variable {grant : Grant} {token : StoredOAuthToken} {ancestors : List StoredOAuthToken}
variable {exchange : Exchange Statement.Answer} {earlier : Dialogue}
variable {member : Member Command Statement.Answer Reply}
variable {allowed : Discipline Calls (CrowdEvent Command Choice)}

theorem asked_permitted (reached : (provider hashing baseUrl).Reachable allowed crowd)
    (present : member ∈ crowd.members) (heard : exchange :: earlier <:+ member.said) :
    permitted hashing member.command earlier exchange.request :=
  (handle_behaves baseUrl member.command).permitted (Crowd.went reached member present)
    (fun _ _ _ => trivial) heard

variable {said : Dialogue}

theorem asking_permitted (reached : (provider hashing baseUrl).Reachable allowed crowd)
    {command : Command} {statement : Statement} {next : statement.Answer → Call Reply}
    (present : ⟨command, said, .ask statement next⟩ ∈ crowd.members) : permitted hashing command said statement :=
  ((handle_behaves baseUrl command).after (Crowd.went reached _ present)
    fun _ _ _ => trivial).1

theorem Chain.grown (chain : Chain crowd token key grant ancestors)
    (grown : Crowd.Grown crowd after) : Chain after token key grant ancestors := by
  induction chain with
  | issued present inserted taken among =>
    obtain ⟨other, presentAfter, -, longer⟩ := grown.mem present
    exact .issued presentAfter (inserted.trans longer) taken among
  | refreshed _ present rotated found among ih =>
    obtain ⟨other, presentAfter, -, longer⟩ := grown.mem present
    exact .refreshed ih presentAfter (rotated.trans longer) found among

theorem Approved.grown (approved : Approved crowd key grant) (grown : Crowd.Grown crowd after) :
    Approved after key grant := by
  cases approved with
  | code present command created =>
    obtain ⟨other, presentAfter, same, longer⟩ := grown.mem present
    exact .code presentAfter (same.trans command) (longer.subset created)
  | device creates command created approves approval approved answered =>
    obtain ⟨creator, createsAfter, sameCreator, longer⟩ := grown.mem creates
    obtain ⟨approver, approvesAfter, sameApprover, later⟩ := grown.mem approves
    exact .device createsAfter (sameCreator.trans command) (longer.subset created) approvesAfter
      (sameApprover.trans approval) (later.subset approved) answered

/-- The token has come from some grant. -/
def Rooted (crowd : Calls) (token : StoredOAuthToken) : Prop :=
  ∃ key grant ancestors, Chain crowd token key grant ancestors

/-- The device code is as a call has created it. -/
def Created (crowd : Calls) (row : StoredDeviceCode) : Prop :=
  ∃ creator ∈ crowd.members,
    creator.command = .createDeviceAuthorization row.clientId row.scope row.resource ∧
      ⟨.insertDevice row, ()⟩ ∈ creator.said

theorem Created.grown {row : StoredDeviceCode} (created : Created crowd row)
    (grown : Crowd.Grown crowd after) : Created after row := by
  obtain ⟨creator, present, command, heard⟩ := created
  obtain ⟨other, presentAfter, sameCommand, longer⟩ := grown.mem present
  exact ⟨other, presentAfter, sameCommand.trans command, longer.subset heard⟩

/-- What the device code stands for has been approved. -/
def ApprovedDevice (crowd : Calls) (row : StoredDeviceCode) : Prop :=
  ∃ userId, row.userId = some userId ∧
    Approved crowd (.device row.deviceCode) (row.grantTo userId)

/-- What calls have been told of grants and tokens they have been told rightly. -/
def Backed (crowd : Calls) : Exchange Statement.Answer → Prop
  | ⟨.selectRefresh _, some old⟩ => Rooted crowd old
  | ⟨.selectAccess _, some row⟩ => Rooted crowd row
  | ⟨.useCode code, some row⟩ => Approved crowd (.code code) row.grant
  | ⟨.claimDevice deviceCode _, some row⟩ =>
    row.deviceCode = deviceCode ∧ ApprovedDevice crowd row
  | _ => True

theorem Backed.grown (backed : Backed crowd exchange) (grown : Crowd.Grown crowd after) : Backed after exchange := by
  unfold Backed at backed ⊢
  split
  · obtain ⟨key, grant, ancestors, chain⟩ := backed
    exact ⟨key, grant, ancestors, chain.grown grown⟩
  · obtain ⟨key, grant, ancestors, chain⟩ := backed
    exact ⟨key, grant, ancestors, chain.grown grown⟩
  · exact Approved.grown backed grown
  · obtain ⟨same, userId, user, approved⟩ := backed
    exact ⟨same, userId, user, approved.grown grown⟩
  · trivial

/-- Every row of the tables and every answer has its origin in the calls. -/
structure Accounted (crowd : Calls) : Prop where
  tokens : ∀ row ∈ crowd.shared.tokens, Rooted crowd row.unrevoked
  codes : ∀ row ∈ crowd.shared.codes, Approved crowd (.code row.code) row.grant
  pending : ∀ row ∈ crowd.shared.devices, row.status = .pending → Created crowd row
  approved : ∀ row ∈ crowd.shared.devices, row.status = .approved → ApprovedDevice crowd row
  backed : ∀ member ∈ crowd.members, ∀ exchange ∈ member.said, Backed crowd exchange

theorem Accounted.answers {statement : Statement} {choice : Choice} {answer : statement.Answer}
    {database : Database} (accounted : Accounted crowd)
    (served : crowd.shared.serve statement choice = some (answer, database)) : Backed crowd ⟨statement, answer⟩ := by
  have live : ∀ (row : StoredOAuthToken), row ∈ crowd.shared.tokens → row.revokedAt = none → Rooted crowd row := by
    intro row present unrevoked
    have rooted := accounted.tokens row present
    rwa [StoredOAuthToken.unrevoked_of_live unrevoked] at rooted
  cases statement with
  | selectRefresh tokenHash =>
    cases served
    cases found : crowd.shared.tokens.find? (liveRefresh tokenHash choice.now) with
    | none => trivial
    | some row =>
      have good := List.find?_some found
      simp only [liveRefresh, decide_eq_true_eq] at good
      exact live row (List.mem_of_find?_eq_some found) good.2.2.1
  | selectAccess tokenHash =>
    cases served
    cases found : crowd.shared.tokens.find? (liveAccess crowd.shared.users tokenHash choice.now) with
    | none => trivial
    | some row =>
      have good := List.find?_some found
      simp only [liveAccess, decide_eq_true_eq] at good
      exact live row (List.mem_of_find?_eq_some found) good.2.2.2.1
  | useCode code =>
    cases served
    cases found : crowd.shared.codes.find? (codeUse code choice.now).selects with
    | none => trivial
    | some row =>
      have good := List.find?_some found
      simp only [codeUse, decide_eq_true_eq] at good
      have approved := accounted.codes row (List.mem_of_find?_eq_some found)
      rw [good.1] at approved
      exact approved
  | claimDevice deviceCode clientId =>
    cases served
    cases found : crowd.shared.devices.find? (claimableDevice deviceCode clientId choice.now) with
    | none => trivial
    | some row =>
      have good := List.find?_some found
      simp only [claimableDevice, decide_eq_true_eq] at good
      exact ⟨good.1, accounted.approved row (List.mem_of_find?_eq_some found) good.2.2.1⟩
  | _ => trivial

theorem Rooted.grown (rooted : Rooted crowd token) (grown : Crowd.Grown crowd after) : Rooted after token := by
  obtain ⟨key, grant, ancestors, chain⟩ := rooted
  exact ⟨key, grant, ancestors, chain.grown grown⟩

theorem ApprovedDevice.grown {row : StoredDeviceCode} (device : ApprovedDevice crowd row)
    (grown : Crowd.Grown crowd after) : ApprovedDevice after row := by
  obtain ⟨userId, user, approved⟩ := device
  exact ⟨userId, user, approved.grown grown⟩

theorem takes_approved (accounted : Accounted crowd) (present : member ∈ crowd.members)
    (taken : Takes member.said key grant) : Approved crowd key grant := by
  cases taken with
  | code used => exact accounted.backed member present _ used
  | device claimed user =>
    obtain ⟨rfl, owner, recorded, approved⟩ := accounted.backed member present _ claimed
    rw [orNull_some user] at recorded
    cases recorded
    exact approved

theorem newTokens_rooted {command : Command} {statement : Statement}
    {answer : statement.Answer} {rest : Call Reply} (asked : permitted hashing command said statement)
    (backed : ∀ exchange ∈ said, Backed after exchange)
    (present : ⟨command, ⟨statement, answer⟩ :: said, rest⟩ ∈ after.members)
    (among : token ∈ statement.newTokens) : Rooted after token := by
  cases statement with
  | insertTokens rows =>
    obtain ⟨key, grant, taken⟩ := Issues.taken asked
    exact ⟨key, grant, [], .issued present (List.suffix_refl _) taken among⟩
  | rotate id rows =>
    obtain ⟨tokenHash, old, found, rfl⟩ := Rotates.found asked
    obtain ⟨key, grant, ancestors, chain⟩ := backed _ found
    exact ⟨key, grant, old :: ancestors, .refreshed chain present (List.suffix_refl _) found among⟩
  | _ => cases among

theorem newTokens_live {command : Command} {statement : Statement}
    (asked : permitted hashing command said statement) (among : token ∈ statement.newTokens) :
    token.revokedAt = none := by
  cases statement with
  | insertTokens rows =>
    obtain ⟨key, grant, taken⟩ := Issues.taken asked
    exact ((Issues.granted asked key grant taken).2 token among).revokedAt
  | rotate id rows =>
    obtain ⟨tokenHash, old, found, -⟩ := Rotates.found asked
    obtain ⟨params, -, -, -, -, refreshes⟩ := Rotates.refreshed asked tokenHash old found
    exact (refreshes token among).revokedAt
  | _ => cases among

theorem Accounted.joins (accounted : Accounted crowd) (command : Command) (rest : Call Reply)
    (grown : Crowd.Grown crowd ⟨crowd.shared, crowd.members ++ [⟨command, [], rest⟩]⟩) :
    Accounted ⟨crowd.shared, crowd.members ++ [⟨command, [], rest⟩]⟩ where
  tokens row present := (accounted.tokens row present).grown grown
  codes row present := (accounted.codes row present).grown grown
  pending row present status := (accounted.pending row present status).grown grown
  approved row present status := (accounted.approved row present status).grown grown
  backed := by
    intro member present exchange heard
    rcases List.mem_append.mp present with old | new
    · exact (accounted.backed member old exchange heard).grown grown
    · rw [List.mem_singleton.mp new] at heard
      cases heard

theorem accounted (reached : (provider hashing baseUrl).Reachable allowed crowd) : Accounted crowd := by
  refine reached.invariant ?_ ?_
  · intro crowd starts
    obtain ⟨⟨codes, devices, tokens⟩, members⟩ := starts
    exact ⟨by simp [tokens], by simp [codes], by simp [devices], by simp [devices],
      by simp [members]⟩
  · intro before event after reached accounted _ stepped
    have grown := Crowd.grown_of_step stepped
    rcases Crowd.step_cases stepped with ⟨command, rfl, rfl⟩ |
      ⟨place, choice, command, said, statement, next, answer, database, rfl, found, served, rfl⟩
    · exact accounted.joins command _ grown
    · have asks := List.mem_of_getElem? found
      have asked := asking_permitted reached asks
      have present : (⟨command, ⟨statement, answer⟩ :: said, next answer⟩ : Member Command Statement.Answer Reply) ∈
          before.members.set place ⟨command, ⟨statement, answer⟩ :: said, next answer⟩ :=
        List.mem_set (List.getElem?_eq_some_iff.mp found).1 _
      refine ⟨?_, ?_, ?_, ?_, ?_⟩
      · intro row stored
        rcases serve_tokens served stored with ⟨old, was, outlives⟩ | new
        · rw [← outlives.same]
          exact (accounted.tokens old was).grown grown
        · rw [StoredOAuthToken.unrevoked_of_live (newTokens_live asked new)]
          exact newTokens_rooted asked (fun exchange heard =>
            (accounted.backed _ asks exchange heard).grown grown) present new
      · intro row stored
        rcases serve_codes served stored with ⟨old, was, code, same⟩ | rfl
        · rw [← code, ← same]
          exact (accounted.codes old was).grown grown
        · obtain ⟨params, userId, organizationId, rfl, consent⟩ := asked
          rw [consent]
          exact .code present rfl List.mem_cons_self
      · intro row stored status
        rcases serve_devices served stored with was | rfl | denied |
          ⟨old, was, userId, organizationId, scopeOverride, waiting, rfl, rfl, -⟩
        · exact (accounted.pending row was status).grown grown
        · exact ⟨_, present, asked.1, List.mem_cons_self⟩
        · rw [denied] at status
          cases status
        · cases status
      · intro row stored status
        rcases serve_devices served stored with was | rfl | denied |
          ⟨old, was, userId, organizationId, scopeOverride, waiting, rfl, rfl, answered, selected⟩
        · exact (accounted.approved row was status).grown grown
        · rw [asked.2.1] at status
          cases status
        · rw [denied] at status
          cases status
        · obtain ⟨creator, creates, command, created⟩ :=
            (accounted.pending old was waiting).grown grown
          refine ⟨userId, rfl, ?_⟩
          exact .device creates command created present asked List.mem_cons_self (by
              rw [eq_of_heq answered]
              exact List.mem_map_of_mem (List.mem_filter.mpr ⟨was, selected⟩))
      · intro member there exchange heard
        rcases List.mem_or_eq_of_mem_set there with old | new
        · exact (accounted.backed member old exchange heard).grown grown
        · subst new
          rcases List.mem_cons.mp heard with rfl | earlier
          · exact (accounted.answers served).grown grown
          · exact (accounted.backed _ asks exchange earlier).grown grown

theorem Takes.later (taken : Takes earlier key grant) (longer : earlier <:+ said) : Takes said key grant := by
  cases taken with
  | code used => exact .code (longer.subset used)
  | device claimed user => exact .device (longer.subset claimed) user

theorem Chain.approved (reached : (provider hashing baseUrl).Reachable allowed crowd)
    (chain : Chain crowd token key grant ancestors) : Approved crowd key grant := by
  induction chain with
  | issued present inserted taken _ =>
    exact takes_approved (accounted reached) present (taken.later ((List.suffix_cons _ _).trans inserted))
  | refreshed _ _ _ _ _ ih => exact ih

theorem Chain.owner (reached : (provider hashing baseUrl).Reachable allowed crowd)
    (chain : Chain crowd token key grant ancestors) :
    token.userId = grant.userId ∧ token.organizationId = grant.organizationId ∧ token.clientId = grant.clientId := by
  induction chain with
  | issued present inserted taken among =>
    have issues : Issues hashing _ _ _ := asked_permitted reached present inserted
    have bears := (issues.granted _ _ taken).2 _ among
    exact ⟨bears.userId, bears.organizationId, bears.clientId⟩
  | refreshed _ present rotated found among ih =>
    have rotates : Rotates hashing _ _ _ _ := asked_permitted reached present rotated
    obtain ⟨params, -, -, -, -, refreshes⟩ := rotates.refreshed _ _ found
    have refreshed := refreshes _ among
    exact ⟨refreshed.userId.trans ih.1, refreshed.organizationId.trans ih.2.1, refreshed.clientId.trans ih.2.2⟩

/-- The request asks for no blanks that stand for more than the old token has, and for no
other resource. -/
def Narrowing (params : TokenRequestParams) (old : StoredOAuthToken) : Prop :=
  (∀ requested ∈ params.scope, onlyBlanks requested → DEFAULT_SCOPES ⊆ parseScopes old.scope) ∧
    ∀ resource ∈ orNull params.resource, old.resource = some resource

instance (params : TokenRequestParams) (old : StoredOAuthToken) :
    Decidable (Narrowing params old) :=
  inferInstanceAs (Decidable (_ ∧ _))

theorem refreshes_within {old : StoredOAuthToken} {params : TokenRequestParams}
    (refreshes : token.Refreshes old params) :
    parseScopes token.scope ⊆ parseScopes old.scope ∧ token.resource = old.resource ↔ Narrowing params old := by
  refine and_congr (refreshedScope_narrows refreshes.scope) ?_
  rw [refreshes.resource]
  cases orNull params.resource with
  | none => simp
  | some resource => simp [eq_comm]

def Command.refresh? : Command → Option TokenRequestParams
  | .refreshAccessToken params => some params
  | _ => none

def Statement.refreshHash? : Statement → Option String
  | .selectRefresh tokenHash => some tokenHash
  | _ => none

/-- Refreshes that go through are narrowing. -/
def narrows (database : Database) (command : Command) (statement : Statement) (choice : Choice) : Prop :=
  ∀ params ∈ command.refresh?, ∀ tokenHash ∈ statement.refreshHash?,
    ∀ old ∈ database.tokens.find? (liveRefresh tokenHash choice.now),
      old.clientId = params.clientId → (refreshedScope old.scope params.scope).isOk = true →
        Narrowing params old

instance (database : Database) (command : Command) (statement : Statement) (choice : Choice) :
    Decidable (narrows database command statement choice) :=
  inferInstanceAs (Decidable (∀ _ ∈ _, ∀ _ ∈ _, ∀ _ ∈ _, _))

theorem heard_narrowing (reached : (provider hashing baseUrl).Reachable (Crowd.obeys narrows) crowd)
    (present : member ∈ crowd.members) {params : TokenRequestParams} {tokenHash : String}
    {old : StoredOAuthToken} (command : member.command = .refreshAccessToken params)
    (found : ⟨.selectRefresh tokenHash, some old⟩ ∈ member.said) (client : old.clientId = params.clientId)
    (granted : (refreshedScope old.scope params.scope).isOk = true) : Narrowing params old := by
  let assumes (command : Command) (exchange : Exchange Statement.Answer) : Prop :=
    ∀ params tokenHash old, command = .refreshAccessToken params →
      exchange = ⟨.selectRefresh tokenHash, some old⟩ → old.clientId = params.clientId →
        (refreshedScope old.scope params.scope).isOk = true → Narrowing params old
  have heard : ∀ member ∈ crowd.members, ∀ exchange ∈ member.said, assumes member.command exchange := by
    refine Crowd.heard_lawful ?_ reached
    intro database command statement choice answer later lawful served params tokenHash old refresh
      same client granted
    subst refresh
    cases same
    simp only [Database.serve, Option.some.injEq, Prod.mk.injEq] at served
    exact lawful params rfl tokenHash rfl old served.1 client granted
  exact heard member present _ found params tokenHash old command rfl client granted

theorem Chain.narrow (reached : (provider hashing baseUrl).Reachable (Crowd.obeys narrows) crowd)
    (chain : Chain crowd token key grant ancestors) :
    parseScopes token.scope ⊆ parseScopes grant.scope ∧ token.resource = grant.resource ∧
      ∀ ancestor ∈ ancestors, parseScopes token.scope ⊆ parseScopes ancestor.scope := by
  induction chain with
  | issued present inserted taken among =>
    have issues : Issues hashing _ _ _ := asked_permitted reached present inserted
    have bears := (issues.granted _ _ taken).2 _ among
    refine ⟨?_, bears.resource, by simp⟩
    rw [bears.scope]
    exact List.Subset.refl _
  | refreshed _ present rotated found among ih =>
    have rotates : Rotates hashing _ _ _ _ := asked_permitted reached present rotated
    obtain ⟨params, command, client, -, -, refreshes⟩ := rotates.refreshed _ _ found
    have refreshed := refreshes _ among
    have earlier := (List.suffix_cons _ _).trans rotated
    have narrowing := heard_narrowing reached present command (earlier.subset found) client
      (by rw [refreshed.scope]; rfl)
    obtain ⟨scopes, resource⟩ := (refreshes_within refreshed).mpr narrowing
    refine ⟨List.Subset.trans scopes ih.1, resource.trans ih.2.1, ?_⟩
    intro ancestor among
    rcases List.mem_cons.mp among with rfl | before
    · exact scopes
    · exact List.Subset.trans scopes (ih.2.2 ancestor before)

/-- What is verified is no more than the grant and than every token on the way. -/
structure Within (info : AuthInfo) (grant : Grant) (ancestors : List StoredOAuthToken) : Prop where
  userId : info.userId = grant.userId
  organizationId : info.organizationId = grant.organizationId
  clientId : info.clientId = grant.clientId
  scopes : info.scopes ⊆ parseScopes grant.scope
  ancestors : ∀ ancestor ∈ ancestors, info.scopes ⊆ parseScopes ancestor.scope
  resource : info.resource = orNull grant.resource

/-- Every access token that has been verified has come from a grant that was approved, and
carries no more. -/
def GrantsNeverWiden (hashing : Hashing) (crowd : Calls) : Prop :=
  ∀ member ∈ crowd.members, ∀ presented info, member.command = .verifyAccessToken presented →
    member.rest = .done (.verified (some info)) → info.tokenType = .accessToken →
      ∃ token, token.tokenHash = hashing.hashToken presented ∧ Rooted crowd token ∧
        ∀ key grant ancestors, Chain crowd token key grant ancestors →
          Approved crowd key grant ∧ Within info grant ancestors

theorem verifyAccessToken_finds {presented : String} {info : AuthInfo}
    (went : Process.After (handle hashing baseUrl (.verifyAccessToken presented)) said
      (.done (.verified (some info)))) (kind : info.tokenType = .accessToken) :
    ∃ token, ⟨.selectAccess (hashing.hashToken presented), some token⟩ ∈ said ∧ info = token.authInfo := by
  let found (said : Dialogue) (info : AuthInfo) : Prop := info.tokenType = .accessToken →
    ∃ token, ⟨.selectAccess (hashing.hashToken presented), some token⟩ ∈ said ∧
      info = token.authInfo
  have ends : (handle hashing baseUrl (.verifyAccessToken presented)).Keeps (fun _ _ => True)
      (fun _ _ => True) (fun said reply => ∀ info, reply = .verified (some info) →
        found said info) [] := by
    simp only [handle, verifyAccessToken]
    split
    · refine .answered trivial fun answer _ => ?_
      intro info same kind
      cases answer with
      | none => cases same
      | some row =>
        cases same
        cases kind
    · refine .answered trivial fun answer _ => ?_
      intro info same kind
      cases answer with
      | none => cases same
      | some row =>
        cases same
        exact ⟨row, List.mem_cons_self, rfl⟩
  exact ends.after went (fun _ _ _ => trivial) info rfl kind

theorem selected_hash {database later : Database} {tokenHash : String} {choice : Choice}
    (served : database.serve (.selectAccess tokenHash) choice = some (some token, later)) :
    token.tokenHash = tokenHash := by
  simp only [Database.serve, Option.some.injEq, Prod.mk.injEq] at served
  have good := List.find?_some served.1
  simp only [liveAccess, decide_eq_true_eq] at good
  exact good.2.1

theorem grants_never_widen (reached : (provider hashing baseUrl).Reachable (Crowd.obeys narrows) crowd) :
    GrantsNeverWiden hashing crowd := by
  intro member present presented info command ended kind
  have went := Crowd.went reached member present
  rw [command, ended] at went
  obtain ⟨token, heard, rfl⟩ := verifyAccessToken_finds went kind
  let assumes (_ : Command) (exchange : Exchange Statement.Answer) : Prop :=
    ∀ tokenHash token, exchange = ⟨.selectAccess tokenHash, some token⟩ →
      token.tokenHash = tokenHash
  have hashed : ∀ member ∈ crowd.members, ∀ exchange ∈ member.said, assumes member.command exchange := by
    refine Crowd.heard_lawful ?_ reached
    intro database command statement choice answer later _ served tokenHash token same
    cases same
    exact selected_hash served
  refine ⟨token, hashed member present _ heard _ _ rfl, (accounted reached).backed member present _ heard, ?_⟩
  intro key grant ancestors chain
  obtain ⟨userId, organizationId, clientId⟩ := chain.owner reached
  obtain ⟨scopes, resource, narrower⟩ := chain.narrow reached
  refine ⟨chain.approved reached, userId, organizationId, clientId, scopes, narrower, ?_⟩
  exact congrArg orNull resource

end Provenance

/-- Hashing that hides nothing. -/
def openHashing : Hashing where
  hashToken token := token
  generateCodeChallenge verifier := verifier
  verifyClientSecret secret stored := secret = stored

def publicClient : StoredOAuthClient where
  id := "c"
  tokenEndpointAuthMethod := none
  grantTypes := some ["authorization_code", "refresh_token"]

def oneClient : Calls where
  shared := { clients := [publicClient], users := ["u"] }
  members := []

def onlyProfile : AuthorizationParams where
  clientId := "c"
  redirectUri := "r"
  scope := some "profile:read".toList
  codeChallenge := "v"
  codeChallengeMethod := "S256"

def exchangeOf (code : String) : TokenRequestParams where
  clientId := "c"
  code := some code
  redirectUri := some "r"
  codeVerifier := some "v"

def refreshOf (refreshToken : String) (scope : Option ScopeText) : TokenRequestParams where
  clientId := "c"
  refreshToken := some refreshToken
  scope := scope

/-- The call gets its next answers, the random ones with these values. -/
def told (place : Nat) (values : List String) : List (CrowdEvent Command Choice) :=
  values.map fun value => .answer place { now := 0, value }

/-- A user consents, the code is exchanged, and the token refreshed with the given scope. -/
def refreshedWith (scope : Option ScopeText) : List (CrowdEvent Command Choice) :=
  .join (.createAuthorizationCode onlyProfile "u" (some "o")) :: told 0 ["k", "", ""] ++
  .join (.exchangeAuthorizationCode (exchangeOf "k")) ::
    told 1 ["", "", "a1", "r1", "ia1", "ir1", "", "", ""] ++
  .join (.refreshAccessToken (refreshOf "r1" scope)) ::
    told 2 ["", "", "a2", "r2", "ia2", "ir2", "", "", ""] ++
  .join (.verifyAccessToken "a2") :: told 3 [""]

theorem oneClient_starts : (provider openHashing "").starts oneClient :=
  ⟨⟨rfl, rfl, rfl⟩, rfl⟩

/-- The call has verified a token with these scopes. -/
def verifiedWith (scopes : List ScopeText) (member : Member Command Statement.Answer Reply) : Bool :=
  match member.command, member.rest with
  | .verifyAccessToken _, .done (.verified (some info)) =>
    info.scopes = scopes && info.tokenType = .accessToken
  | _, _ => false

theorem verifiedWith_cases {scopes : List ScopeText}
    {member : Member Command Statement.Answer Reply} (verified : verifiedWith scopes member = true) :
    ∃ presented info, member.command = .verifyAccessToken presented ∧
      member.rest = .done (.verified (some info)) ∧ info.scopes = scopes ∧ info.tokenType = .accessToken := by
  unfold verifiedWith at verified
  split at verified
  · rename_i presented info command ended
    simp only [Bool.and_eq_true, decide_eq_true_eq] at verified
    exact ⟨presented, info, command, ended, verified⟩
  · cases verified

theorem grants_never_widen_when_narrowed :
    ∃ crowd : Calls, crowd.members.any (verifiedWith ["profile:read".toList]) = true ∧
      GrantsNeverWiden openHashing crowd := by
  obtain ⟨crowd, reached, tested⟩ := Machine.exists_of_replay (provider openHashing "")
    (Crowd.obeys narrows) oneClient (refreshedWith (some "profile:read".toList))
    (fun crowd => crowd.members.any (verifiedWith ["profile:read".toList]))
    oneClient_starts (by decide +kernel)
  exact ⟨crowd, tested, grants_never_widen reached⟩

/-- Nobody has consented to anything else. -/
def consentsTo (params : AuthorizationParams) : Command → Bool
  | .createAuthorizationCode given _ _ => given = params
  | .approveDeviceCode .. => false
  | _ => true

theorem approved_only {crowd : Calls} {params : AuthorizationParams} {key : GrantKey} {grant : Grant}
    (only : crowd.members.all (fun member => consentsTo params member.command) = true)
    (approved : Approved crowd key grant) : grant.scope = scopeOrNull params.scope := by
  cases approved with
  | code present command _ =>
    have consents := List.all_eq_true.mp only _ present
    simp only [command, consentsTo, decide_eq_true_eq] at consents
    rw [← consents]
    rfl
  | device _ _ _ approves approval _ _ =>
    have consents := List.all_eq_true.mp only _ approves
    simp only [approval, consentsTo] at consents
    contradiction

/-- A token for the profile only is refreshed with a blank for a scope. -/
theorem grants_widen : ¬ ∀ crowd, (provider openHashing "").Reachable unrestricted crowd →
    GrantsNeverWiden openHashing crowd := by
  intro always
  obtain ⟨crowd, reached, tested⟩ := Machine.exists_of_replay (provider openHashing "")
    unrestricted oneClient (refreshedWith (some " ".toList))
    (fun crowd => crowd.members.any (verifiedWith DEFAULT_SCOPES) &&
      crowd.members.all fun member => consentsTo onlyProfile member.command)
    oneClient_starts (by decide +kernel)
  simp only [Bool.and_eq_true, List.any_eq_true] at tested
  obtain ⟨⟨member, present, verified⟩, only⟩ := tested
  obtain ⟨presented, info, command, ended, scopes, kind⟩ := verifiedWith_cases verified
  obtain ⟨token, -, ⟨key, grant, ancestors, chain⟩, narrow⟩ :=
    always crowd reached member present presented info command ended kind
  obtain ⟨approved, within⟩ := narrow key grant ancestors chain
  have wide := within.scopes
  rw [scopes, approved_only only approved] at wide
  exact absurd wide (by decide)

end Lobu.OAuth
