import Lobu.OAuth.SingleUse

namespace Lobu.OAuth

open Lobu.Foundation

/-! # Revocations -/

section Chains

variable {hashing : Hashing} {baseUrl : String} {crowd after : Calls}
variable {allowed : Discipline Calls (CrowdEvent Command Choice)}
variable {token : StoredOAuthToken} {key : GrantKey} {grant : Grant}
variable {ancestors : List StoredOAuthToken} {member : Member Command Statement.Answer Reply}

theorem asked_of_heard {statement : Statement} {answer : statement.Answer} {earlier : Dialogue}
    (present : member ∈ crowd.members) (heard : ⟨statement, answer⟩ :: earlier <:+ member.said) :
    ∃ place, crowd.members[place]? = some member ∧ Crowd.Asked crowd place earlier statement := by
  obtain ⟨place, found⟩ := List.mem_iff_getElem?.mp present
  exact ⟨place, found, member, answer, found, heard⟩

section

variable (reached : (provider hashing baseUrl).Reachable allowed crowd)
include reached

theorem inserted_by_one {statement second : Statement} {answer : statement.Answer} {answerToo : second.Answer}
    {earlier before : Dialogue} {other : Member Command Statement.Answer Reply}
    (present : member ∈ crowd.members) (heard : ⟨statement, answer⟩ :: earlier <:+ member.said)
    (presentToo : other ∈ crowd.members) (heardToo : ⟨second, answerToo⟩ :: before <:+ other.said)
    (among : token ∈ statement.newTokens) (amongToo : token ∈ second.newTokens) :
    member = other ∧ earlier = before ∧ statement = second := by
  obtain ⟨place, found, asked⟩ := asked_of_heard present heard
  obtain ⟨otherPlace, foundToo, askedToo⟩ := asked_of_heard presentToo heardToo
  have issuing : ∀ statement : Statement, token ∈ statement.newTokens → statement.issues = true := by
    intro statement new
    cases statement <;> first | rfl | cases new
  cases (inserted reached).apart place earlier statement asked token among otherPlace before second
    askedToo token amongToo rfl
  cases found.symm.trans foundToo
  exact ⟨rfl, issued_once reached asked askedToo (issuing statement among) (issuing second amongToo)⟩

theorem chain_unique {otherKey : GrantKey} {otherGrant : Grant} {others : List StoredOAuthToken}
    (chain : Chain crowd token key grant ancestors) (other : Chain crowd token otherKey otherGrant others) :
    otherKey = key ∧ otherGrant = grant ∧ others = ancestors := by
  induction chain generalizing others with
  | issued present inserted taken among =>
    cases other with
    | issued presentToo insertedToo takenToo amongToo =>
      obtain ⟨-, rfl, -⟩ :=
        inserted_by_one reached present inserted presentToo insertedToo among amongToo
      have issues : Issues hashing _ _ _ := asked_permitted reached present inserted
      obtain ⟨sameKey, sameGrant⟩ := issues.only _ _ taken _ _ takenToo
      exact ⟨sameKey, sameGrant, rfl⟩
    | refreshed _ presentToo rotated _ amongToo =>
      obtain ⟨-, -, different⟩ :=
        inserted_by_one reached present inserted presentToo rotated among amongToo
      cases different
  | refreshed earlier present rotated found among ih =>
    cases other with
    | issued presentToo inserted _ amongToo =>
      obtain ⟨-, -, different⟩ :=
        inserted_by_one reached present rotated presentToo inserted among amongToo
      cases different
    | refreshed earlierToo presentToo rotatedToo foundToo amongToo =>
      obtain ⟨-, rfl, -⟩ :=
        inserted_by_one reached present rotated presentToo rotatedToo among amongToo
      have rotates : Rotates hashing _ _ _ _ := asked_permitted reached present rotated
      obtain rfl := rotates.only _ _ found _ _ foundToo
      obtain ⟨rfl, rfl, rfl⟩ := ih earlierToo
      exact ⟨rfl, rfl, rfl⟩

theorem found_stored {tokenHash : String} {old : StoredOAuthToken} (present : member ∈ crowd.members)
    (found : ⟨.selectRefresh tokenHash, some old⟩ ∈ member.said) :
    ∃ stored ∈ crowd.shared.tokens, Outlives old stored := by
  obtain ⟨key, grant, ancestors, chain⟩ := (accounted reached).backed member present _ found
  cases chain with
  | issued present inserted _ among =>
    obtain ⟨place, -, asked⟩ := asked_of_heard present inserted
    exact (Lobu.OAuth.inserted reached).stored place _ _ asked old among
  | refreshed _ present rotated _ among =>
    obtain ⟨place, -, asked⟩ := asked_of_heard present rotated
    exact (Lobu.OAuth.inserted reached).stored place _ _ asked old among

end

end Chains

/-- The exchange approves the grant under the key. -/
def makes : GrantKey → Exchange Statement.Answer → Bool
  | .code code, ⟨.insertCode row, _⟩ => row.code = code
  | .device deviceCode, ⟨.approveDevice .., deviceCodes⟩ => deviceCodes.contains deviceCode
  | _, _ => false

/-- The grant under the key has been approved. -/
def made (crowd : Calls) (key : GrantKey) : Bool :=
  crowd.members.any fun member => member.said.any (makes key)

def Command.key? : Command → Option GrantKey
  | .exchangeAuthorizationCode params => params.code.map .code
  | .exchangeDeviceCode params => params.deviceCode.map .device
  | _ => none

def Statement.issuesTo (userId : String) : Statement → Bool
  | .insertTokens rows => rows.any (·.userId = userId)
  | _ => false

/-- No code that was approved before the revocation is exchanged for tokens of the user. -/
def spares (revoked : Calls) (userId : String) (_ : Database) (command : Command)
    (statement : Statement) (_ : Choice) : Prop :=
  ∀ key ∈ command.key?, made revoked key = true → statement.issuesTo userId = false

instance (revoked : Calls) (userId : String) (database : Database) (command : Command)
    (statement : Statement) (choice : Choice) :
    Decidable (spares revoked userId database command statement choice) :=
  inferInstanceAs (Decidable (∀ _ ∈ _, _))

/-- What holds after the revocation. -/
def sparing (revoked : Calls) (userId : String) : Discipline Calls (CrowdEvent Command Choice) :=
  Crowd.obeys fun database command statement choice => heeds database command statement choice ∧
    spares revoked userId database command statement choice

/-- A token of a grant that the revocation does not cover. -/
def Spared (revoked : Calls) (userId : String) (crowd : Calls) (token : StoredOAuthToken) : Prop :=
  ∃ key grant ancestors, Chain crowd token key grant ancestors ∧
    (grant.userId = userId → made revoked key = false)

section Users

variable {hashing : Hashing} {baseUrl : String} {crowd revoked after : Calls} {userId : String}
variable {allowed : Discipline Calls (CrowdEvent Command Choice)}
variable {place : Nat} {choice : Choice} {token : StoredOAuthToken}

theorem sparing_heeds {state : Calls} {event : CrowdEvent Command Choice}
    (permitted : sparing revoked userId state event) : Crowd.obeys heeds state event := by
  cases event with
  | join command => trivial
  | answer place choice => exact fun asked asking => (permitted asked asking).1

theorem Spared.grown (spared : Spared revoked userId crowd token)
    (grown : Crowd.Grown crowd after) : Spared revoked userId after token := by
  obtain ⟨key, grant, ancestors, chain, covered⟩ := spared
  exact ⟨key, grant, ancestors, chain.grown grown, covered⟩

theorem spared_at_revocation (reached : (provider hashing baseUrl).Reachable allowed crowd)
    (asking : ∃ command, crowd.asking place = some (command, .revokeUser userId))
    (permitted : allowed crowd (.answer place choice))
    (stepped : (provider hashing baseUrl).step crowd (.answer place choice) = some revoked)
    (stored : token ∈ revoked.shared.tokens) (live : token.revokedAt = none) :
    Spared revoked userId revoked token.unrevoked := by
  have reachedToo := Machine.Reachable.step reached permitted stepped
  obtain ⟨key, grant, ancestors, chain⟩ := (accounted reachedToo).tokens token stored
  refine ⟨key, grant, ancestors, chain, ?_⟩
  intro user
  exfalso
  obtain ⟨command, asks⟩ := asking
  have moved : Crowd.step (handle hashing baseUrl) Database.serve crowd (.answer place choice) =
    some revoked := stepped
  rcases Crowd.step_cases moved with ⟨_, different, -⟩ |
    ⟨here, given, member, said, statement, next, answer, database, same, found, served, rfl⟩
  · cases different
  · cases same
    cases (Crowd.asking_of_found found).symm.trans asks
    cases served
    obtain ⟨old, present, outlives, selected⟩ := mem_revoke stored
    have owner : old.userId = userId := by
      have unrevoked := (chain.owner reachedToo).1.trans user
      rw [← outlives.same] at unrevoked
      exact unrevoked
    have unrevoked : old.revokedAt = none :=
      not_not.mp fun gone => outlives.revoked gone live
    exact selected (decide_eq_true ⟨owner, unrevoked⟩) live

theorem spared_when_inserted {command : Command} {said : Dialogue} {statement : Statement}
    {answer : statement.Answer} {next : statement.Answer → Call Reply}
    (reached : (provider hashing baseUrl).Reachable allowed crowd)
    (before : ∀ token ∈ crowd.shared.tokens, token.revokedAt = none → Spared revoked userId crowd token.unrevoked)
    (found : crowd.members[place]? = some ⟨command, said, .ask statement next⟩)
    (heeded : heeds crowd.shared command statement choice)
    (spared : spares revoked userId crowd.shared command statement choice) (new : token ∈ statement.newTokens)
    (grown : Crowd.Grown crowd after) (present : (⟨command, ⟨statement, answer⟩ :: said, next answer⟩ :
      Member Command Statement.Answer Reply) ∈ after.members) : Spared revoked userId after token := by
  have asks := List.mem_of_getElem? found
  have asked := asking_permitted reached asks
  cases statement with
  | insertTokens rows =>
    obtain ⟨key, grant, taken⟩ := Issues.taken asked
    refine ⟨key, grant, [], .issued present (List.suffix_refl _) taken new, ?_⟩
    intro user
    obtain ⟨checked, bears⟩ := Issues.granted asked key grant taken
    have exchanged : key ∈ command.key? := by
      cases key with
      | code code =>
        obtain ⟨params, rfl, given, -⟩ := checked
        simp [Command.key?, given]
      | device deviceCode =>
        obtain ⟨params, rfl, given, -⟩ := checked
        simp [Command.key?, given]
    cases covered : made revoked key with
    | false => rfl
    | true =>
      have none := spared key exchanged covered
      have issued : Statement.issuesTo userId (.insertTokens rows) = true :=
        List.any_eq_true.mpr ⟨token, new, by simp [(bears token new).userId, user]⟩
      rw [issued] at none
      contradiction
  | rotate id rows =>
    obtain ⟨tokenHash, old, heard, rfl⟩ := Rotates.found asked
    obtain ⟨row, member, same, live⟩ := heeded.2 old.id rfl
    obtain ⟨stored, memberToo, outlives⟩ := found_stored reached asks heard
    have one := RowUpdate.eq_of_column (inserted reached).once member memberToo (same.trans outlives.id)
    subst one
    obtain ⟨key, grant, ancestors, chain, covered⟩ := before row member live
    have oldLive : old.revokedAt = none :=
      not_not.mp fun gone => outlives.revoked gone live
    rw [← outlives.same, StoredOAuthToken.unrevoked_of_live oldLive] at chain
    exact ⟨key, grant, old :: ancestors, .refreshed (chain.grown grown) present
      (List.suffix_refl _) heard new, covered⟩
  | _ => cases new

theorem covered_revoked (reached : (provider hashing baseUrl).Reachable (Crowd.obeys heeds) crowd)
    (asking : ∃ command, crowd.asking place = some (command, .revokeUser userId))
    (stepped : (provider hashing baseUrl).step crowd (.answer place choice) = some revoked)
    (permitted : Crowd.obeys heeds crowd (.answer place choice))
    (later : (provider hashing baseUrl).Later (sparing revoked userId) revoked after) :
    ∀ token ∈ after.shared.tokens, token.revokedAt = none → Spared revoked userId after token.unrevoked := by
  have start : (provider hashing baseUrl).Reachable (Crowd.obeys heeds) revoked :=
    .step reached permitted stepped
  induction later with
  | refl => exact fun token => spared_at_revocation reached asking permitted stepped
  | @tail middle after between moved ih =>
    obtain ⟨event, allowed, further⟩ := moved
    have reachedMiddle : (provider hashing baseUrl).Reachable (Crowd.obeys heeds) middle :=
      start.later (Machine.Later.mono (fun _ _ => sparing_heeds) between)
    intro token stored live
    have grown := Crowd.grown_of_step further
    rcases Crowd.step_cases further with ⟨command, rfl, rfl⟩ |
      ⟨place, choice, command, said, statement, next, answer, database, rfl, found, served, rfl⟩
    · exact (ih token stored live).grown grown
    · rcases serve_tokens served stored with ⟨old, was, outlives⟩ | new
      · have oldLive : old.revokedAt = none :=
          not_not.mp fun gone => outlives.revoked gone live
        rw [← outlives.same]
        exact (ih old was oldLive).grown grown
      · rw [StoredOAuthToken.unrevoked_of_live live]
        obtain ⟨heeded, spared⟩ := allowed _ (Crowd.asking_of_found found)
        exact spared_when_inserted reachedMiddle ih found heeded spared new grown
          (List.mem_set (List.getElem?_eq_some_iff.mp found).1 _)

end Users

/-- Tokens have been issued here for the code. -/
def IssuedFor (crowd : Calls) (key : GrantKey) (place : Nat) (earlier : Dialogue) : Prop :=
  ∃ rows grant, Crowd.Asked crowd place earlier (.insertTokens rows) ∧ Takes earlier key grant

/-- The request has passed its checks, and a device code that it took is its client's. -/
def OwnCode (hashing : Hashing) (command : Command) (key : GrantKey) (said : Dialogue) : Prop :=
  Checked hashing command key said ∧ ∀ deviceCode clientId row,
    ⟨.claimDevice deviceCode clientId, some row⟩ ∈ said → row.clientId = clientId

/-- Every code and every refresh token has yielded tokens once at most, to its own client. -/
structure SingleUse (hashing : Hashing) (crowd : Calls) : Prop where
  codes : ∀ key place earlier other before, IssuedFor crowd key place earlier →
    IssuedFor crowd key other before → place = other ∧ earlier = before
  ownCodes : ∀ key place earlier, IssuedFor crowd key place earlier →
    ∃ member, crowd.members[place]? = some member ∧ OwnCode hashing member.command key earlier
  refreshTokens : ∀ id place earlier other before, RotatedFrom crowd id place earlier →
    RotatedFrom crowd id other before → place = other ∧ earlier = before
  ownRefreshTokens : ∀ id place earlier, RotatedFrom crowd id place earlier →
    ∃ member params tokenHash old, crowd.members[place]? = some member ∧
      member.command = .refreshAccessToken params ∧
      ⟨.selectRefresh tokenHash, some old⟩ ∈ earlier ∧ old.id = id ∧
      old.clientId = params.clientId

/-- A revoked refresh token yields nothing more, and once all tokens of a user are revoked no
token of a grant that was approved before is live. -/
structure RevocationsHold (hashing : Hashing) (baseUrl : String) (crowd : Calls) : Prop where
  refreshTokens : ∀ after, (provider hashing baseUrl).Later (Crowd.obeys heeds) crowd after →
    ∀ token ∈ crowd.shared.tokens, token.revokedAt ≠ none → ∀ place earlier,
      RotatedFrom after token.id place earlier → RotatedFrom crowd token.id place earlier
  users : ∀ userId place choice revoked after,
    (∃ command, crowd.asking place = some (command, .revokeUser userId)) →
    Crowd.obeys heeds crowd (.answer place choice) →
    (provider hashing baseUrl).step crowd (.answer place choice) = some revoked →
    (provider hashing baseUrl).Later (sparing revoked userId) revoked after →
      ∀ token ∈ after.shared.tokens, ∀ key grant ancestors,
        Chain after token.unrevoked key grant ancestors → grant.userId = userId →
          made revoked key = true → token.revokedAt ≠ none

section Conclusion

variable {hashing : Hashing} {baseUrl : String} {crowd : Calls}

section

variable (reached : (provider hashing baseUrl).Reachable (Crowd.obeys heeds) crowd)
include reached

theorem claimed_client {member : Member Command Statement.Answer Reply}
    (present : member ∈ crowd.members) {deviceCode clientId : String} {row : StoredDeviceCode}
    (claimed : ⟨.claimDevice deviceCode clientId, some row⟩ ∈ member.said) : row.clientId = clientId := by
  let assumes (_ : Command) (exchange : Exchange Statement.Answer) : Prop :=
    ∀ deviceCode clientId row, exchange = ⟨.claimDevice deviceCode clientId, some row⟩ →
      row.clientId = clientId
  have heard : ∀ member ∈ crowd.members, ∀ exchange ∈ member.said, assumes member.command exchange := by
    refine Crowd.heard_lawful ?_ reached
    intro database command statement choice answer later _ served deviceCode clientId row same
    cases same
    simp only [Database.serve, Option.some.injEq, Prod.mk.injEq] at served
    have claimable := List.find?_some served.1
    simp only [claimableDevice, decide_eq_true_eq] at claimable
    exact claimable.2.1
  exact heard member present _ claimed deviceCode clientId row rfl

theorem taken_at_one {key : GrantKey} {place other : Nat} {earlier before : Dialogue}
    (issued : IssuedFor crowd key place earlier) (issuedToo : IssuedFor crowd key other before) : place = other := by
  obtain ⟨rows, grant, asked, taken⟩ := issued
  obtain ⟨rowsToo, grantToo, askedToo, takenToo⟩ := issuedToo
  obtain ⟨member, found, within, -⟩ := Asked.permitted reached asked
  obtain ⟨memberToo, foundToo, withinToo, -⟩ := Asked.permitted reached askedToo
  cases taken with
  | code used =>
    cases takenToo with
    | code usedToo =>
      exact (codesOnce reached).once _ _ _ _ _ ⟨member, found, within used⟩ ⟨memberToo, foundToo, withinToo usedToo⟩
  | device claimed _ =>
    cases takenToo with
    | device claimedToo _ =>
      exact (devicesOnce reached).once _ _ _ _ _ _ _ ⟨member, found, within claimed⟩
        ⟨memberToo, foundToo, withinToo claimedToo⟩

theorem single_use : SingleUse hashing crowd where
  codes := by
    intro key place earlier other before issued issuedToo
    obtain rfl := taken_at_one reached issued issuedToo
    obtain ⟨rows, grant, asked, -⟩ := issued
    obtain ⟨rowsToo, grantToo, askedToo, -⟩ := issuedToo
    exact ⟨rfl, (issued_once reached asked askedToo rfl rfl).1⟩
  ownCodes := by
    intro key place earlier issued
    obtain ⟨rows, grant, asked, taken⟩ := issued
    obtain ⟨member, found, within, issues⟩ := Asked.permitted reached asked
    have issues : Issues hashing member.command earlier rows := issues
    refine ⟨member, found, (issues.granted key grant taken).1, ?_⟩
    intro deviceCode clientId row claimed
    exact claimed_client reached (List.mem_of_getElem? found) (within claimed)
  refreshTokens := by
    intro id place earlier other before rotated rotatedToo
    obtain rfl := (rotatedOnce reached).once id place earlier other before rotated rotatedToo
    obtain ⟨rows, asked⟩ := rotated
    obtain ⟨rowsToo, askedToo⟩ := rotatedToo
    exact ⟨rfl, (issued_once reached asked askedToo rfl rfl).1⟩
  ownRefreshTokens := by
    intro id place earlier rotated
    obtain ⟨rows, asked⟩ := rotated
    obtain ⟨member, found, -, rotates⟩ := Asked.permitted reached asked
    have rotates : Rotates hashing member.command earlier id rows := rotates
    obtain ⟨tokenHash, old, heard, same⟩ := rotates.found
    obtain ⟨params, command, client, -, -, -⟩ := rotates.refreshed tokenHash old heard
    exact ⟨member, params, tokenHash, old, found, command, heard, same, client⟩

theorem revocations_hold : RevocationsHold hashing baseUrl crowd where
  refreshTokens := by
    intro after later token stored revoked place earlier rotated
    have gone : Revoked crowd.shared token.id := by
      refine ⟨⟨token, stored, rfl⟩, fun row present same => ?_⟩
      rw [RowUpdate.eq_of_column (inserted reached).once present stored same]
      exact revoked
    exact (never_rotated_again reached later gone).2 place earlier rotated
  users := by
    intro userId place choice revoked after asking permitted stepped later token stored key grant
      ancestors chain user covered live
    have reachedAfter : (provider hashing baseUrl).Reachable (Crowd.obeys heeds) after :=
      (Machine.Reachable.step reached permitted stepped).later
        (Machine.Later.mono (fun _ _ => sparing_heeds) later)
    obtain ⟨otherKey, otherGrant, others, otherChain, spared⟩ :=
      covered_revoked reached asking stepped permitted later token stored live
    obtain ⟨rfl, rfl, -⟩ := chain_unique reachedAfter chain otherChain
    rw [spared user] at covered
    contradiction

end

end Conclusion

/-- The call at the place has rotated the refresh token. -/
def rotatedAt (id : String) (place : Nat) (crowd : Calls) : Bool :=
  crowd.members[place]?.any fun member => member.said.any (·.request.rotated? = some id)

theorem rotatedFrom_of_rotatedAt {crowd : Calls} {id : String} {place : Nat}
    (rotated : rotatedAt id place crowd = true) : ∃ earlier, RotatedFrom crowd id place earlier := by
  obtain ⟨member, found, heard⟩ := (Option.any_eq_true ..).mp rotated
  obtain ⟨⟨statement, answer⟩, exchanged, same⟩ := List.any_eq_true.mp heard
  have told : Crowd.Told crowd place ⟨statement, answer⟩ := ⟨member, found, exchanged⟩
  obtain ⟨other, earlier, foundToo, said⟩ := told.asked
  cases statement with
  | rotate rotatedId rows =>
    simp only [Statement.rotated?, decide_eq_true_eq, Option.some.injEq] at same
    subst same
    exact ⟨earlier, rows, other, answer, foundToo, said⟩
  | _ => simp [Statement.rotated?] at same

/-- The code is exchanged, and two refreshes find the same refresh token. -/
def foundTwice : List (CrowdEvent Command Choice) :=
  .join (.createAuthorizationCode onlyProfile "u" (some "o")) :: told 0 ["k", "", ""] ++
  .join (.exchangeAuthorizationCode (exchangeOf "k")) ::
    told 1 ["", "", "a1", "r1", "ia1", "ir1", "", "", ""] ++
  .join (.refreshAccessToken (refreshOf "r1" none)) ::
    told 2 ["", "", "a2", "r2", "ia2", "ir2", "", ""] ++
  .join (.refreshAccessToken (refreshOf "r1" none)) ::
    told 3 ["", "", "a3", "r3", "ia3", "ir3", "", ""]

/-- The call has revoked this many tokens of a user. -/
def revokedMany (revoked : Nat) (member : Member Command Statement.Answer Reply) : Bool :=
  match member.rest with
  | .done (.count count) => count = revoked
  | _ => false

end Lobu.OAuth
