import Lobu.Proxy.PolicyStore

namespace Lobu.Proxy

open Lobu.Foundation

/-! # The hashes of judge policies

A policy is hashed when its bundle is set, and its hash is the key of its circuit breaker and a part
of the keys of its cached verdicts.
-/

structure JudgePolicyBundle where
  judgedDomains : List DomainJudgeRule
  judges : List (String × String)
  extraPolicy : Option String
  judgeModel : Option String

/-- `createHash("sha256")` with its result in hexadecimal digits. -/
structure Sha256 where
  hex : String → String
  length : ∀ text, (hex text).toList.length = 64

def trimmed (text : String) : String := String.ofList (trim text.toList)

/-- An empty text counts as no policy of the operator. -/
def composePolicy (extraPolicy : Option String) (rawPolicy : String) : String :=
  match extraPolicy.filter (· != "") with
  | some extra => trimmed rawPolicy ++ "\n\nAdditional operator policy:\n" ++ trimmed extra
  | none => trimmed rawPolicy

def policyHashInput (organizationId agentId judgeName policy : String) : String :=
  organizationId ++ " " ++ agentId ++ " " ++ judgeName ++ " " ++ policy

section Hashing

variable (sha : Sha256) (organizationId agentId : String)

def hashPolicy (judgeName policy : String) : String :=
  String.ofList ((sha.hex (policyHashInput organizationId agentId judgeName policy)).toList.take 16)

def prepareJudge (extraPolicy : Option String) (judge : String × String) : String × PreparedJudge :=
  let policy := composePolicy extraPolicy judge.2
  (judge.1, { policy, policyHash := hashPolicy sha organizationId agentId judge.1 policy })

def prepareBundle (bundle : JudgePolicyBundle) : PreparedBundle where
  judgedDomains := bundle.judgedDomains
  preparedJudges := bundle.judges.map (prepareJudge sha organizationId agentId bundle.extraPolicy)
  judgeModel := bundle.judgeModel.filter (· != "")

def PolicyStore.set (store : PolicyStore) (bundle : JudgePolicyBundle) : PolicyStore :=
  let key := composeKey organizationId agentId
  (key, prepareBundle sha organizationId agentId bundle) :: store.filter fun entry => entry.1 != key

end Hashing

structure JudgedRequest where
  hostname : String
  method : Option String
  path : Option String

/-- `toLowerCase` and `toUpperCase`. -/
structure LetterCase where
  lower : String → String
  upper : String → String

def VerdictCache.key (letters : LetterCase) (orgId policyHash : String) (request : JudgedRequest) : String :=
  "|".intercalate [orgId, policyHash, letters.lower request.hostname,
    (request.method.map letters.upper).getD "", request.path.getD ""]

section Policies

variable {sha : Sha256} {organizationId agentId : String}

theorem hash_of_lookup {extraPolicy : Option String} {judges : List (String × String)}
    {judgeName : String} {judge : PreparedJudge}
    (found : (judges.map (prepareJudge sha organizationId agentId extraPolicy)).lookup judgeName = some judge) :
    judge.policyHash = hashPolicy sha organizationId agentId judgeName judge.policy := by
  induction judges with
  | nil => cases found
  | cons first judges ih =>
    rw [List.map_cons, List.lookup_cons] at found
    split at found
    · rename_i same
      cases found
      rw [eq_of_beq same]
      rfl
    · exact ih found

theorem hash_of_resolve {names : DomainNames} {store : PolicyStore} {bundle : JudgePolicyBundle}
    {hostname : List Char} {rule : ResolvedJudgeRule}
    (resolved : (store.set sha organizationId agentId bundle).resolve names organizationId agentId
      hostname = some rule) : rule.policyHash = hashPolicy sha organizationId agentId rule.judgeName rule.policy := by
  simp only [PolicyStore.resolve, PolicyStore.set, List.lookup_cons_self, Option.bind_eq_bind,
    Option.bind_some, Option.bind_eq_some_iff] at resolved
  obtain ⟨matched, -, judge, found, shape⟩ := resolved
  cases shape
  exact hash_of_lookup found

theorem hashPolicy_length (judgeName policy : String) :
    (hashPolicy sha organizationId agentId judgeName policy).toList.length = 16 := by
  simp [hashPolicy, sha.length]

/-- Of two judges, one has the name of the other and some words more, with which the other's policy
begins. -/
def Shifted (first second : ResolvedJudgeRule) : Prop :=
  ∃ words, second.judgeName = first.judgeName ++ " " ++ words ∧
    first.policy = words ++ " " ++ second.policy

theorem shifted_iff {first second : ResolvedJudgeRule}
    (different : (first.judgeName, first.policy) ≠ (second.judgeName, second.policy)) :
    policyHashInput organizationId agentId first.judgeName first.policy =
        policyHashInput organizationId agentId second.judgeName second.policy ↔
      Shifted first second ∨ Shifted second first := by
  have pieces (name policy : String) : (policyHashInput organizationId agentId name policy).toList =
        (organizationId.toList ++ ' ' :: agentId.toList ++ [' ']) ++
          (name.toList ++ ' ' :: policy.toList) := by
    simp [policyHashInput, String.toList_append]
  have shift (name other policy more : String) : (∃ words, other.toList = name.toList ++ ' ' :: words ∧
        policy.toList = words ++ ' ' :: more.toList) ↔
      ∃ words, other = name ++ " " ++ words ∧ policy = words ++ " " ++ more := by
    constructor
    · rintro ⟨words, longer, left⟩
      refine ⟨String.ofList words, String.toList_inj.mp ?_, String.toList_inj.mp ?_⟩
      · simp [String.toList_append, longer]
      · simp [String.toList_append, left]
    · rintro ⟨words, rfl, rfl⟩
      exact ⟨words.toList, by simp [String.toList_append], by simp [String.toList_append]⟩
  rw [← String.toList_inj, pieces, pieces, List.append_cancel_left_eq, same_joined_iff, shift, shift]
  refine or_iff_right ?_
  rintro ⟨name, policy⟩
  exact different (Prod.ext (String.toList_inj.mp name) (String.toList_inj.mp policy))

theorem hash_of_key {letters : LetterCase} {policyHash otherHash : String} {request other : JudgedRequest}
    (sameLength : policyHash.toList.length = otherHash.toList.length)
    (same : VerdictCache.key letters organizationId policyHash request =
      VerdictCache.key letters organizationId otherHash other) : policyHash = otherHash := by
  have pieces (hash : String) (request : JudgedRequest) : ∃ rest,
      (VerdictCache.key letters organizationId hash request).toList =
        (organizationId.toList ++ ['|']) ++ (hash.toList ++ rest) := by
    refine ⟨'|' :: ((letters.lower request.hostname).toList ++ '|' ::
      (((request.method.map letters.upper).getD "").toList ++
        '|' :: (request.path.getD "").toList)), ?_⟩
    simp [VerdictCache.key, String.intercalate_cons_cons, String.toList_append]
  obtain ⟨rest, first⟩ := pieces policyHash request
  obtain ⟨more, second⟩ := pieces otherHash other
  rw [← String.toList_inj, first, second, List.append_cancel_left_eq] at same
  exact String.toList_inj.mp (List.append_inj_left same sameLength)

/-- The inputs of the hashes differ, and so do the keys of the breakers and of all cached verdicts. -/
structure Separated (letters : LetterCase) (organizationId agentId : String)
    (first second : ResolvedJudgeRule) : Prop where
  inputs : policyHashInput organizationId agentId first.judgeName first.policy ≠
    policyHashInput organizationId agentId second.judgeName second.policy
  breakers : first.policyHash ≠ second.policyHash
  verdicts : ∀ request other, VerdictCache.key letters organizationId first.policyHash request ≠
    VerdictCache.key letters organizationId second.policyHash other

/-- Two different rules of an agent, which their stores resolve from bundles set at any time, are
separated just where their names and policies are not shifted against each other. -/
theorem policies_separated_iff (letters : LetterCase) {names : DomainNames} {store later : PolicyStore}
    {bundle edited : JudgePolicyBundle} {hostname otherHost : List Char} {first second : ResolvedJudgeRule}
    (resolved : (store.set sha organizationId agentId bundle).resolve names organizationId agentId
      hostname = some first)
    (resolvedToo : (later.set sha organizationId agentId edited).resolve names organizationId agentId
      otherHost = some second) (different : (first.judgeName, first.policy) ≠ (second.judgeName, second.policy))
    (noCollision : hashPolicy sha organizationId agentId first.judgeName first.policy =
        hashPolicy sha organizationId agentId second.judgeName second.policy →
      policyHashInput organizationId agentId first.judgeName first.policy =
        policyHashInput organizationId agentId second.judgeName second.policy) :
    Separated letters organizationId agentId first second ↔ ¬ (Shifted first second ∨ Shifted second first) := by
  have hash := hash_of_resolve resolved
  have otherHash := hash_of_resolve resolvedToo
  rw [← @shifted_iff organizationId agentId first second different]
  constructor
  · exact fun separated => separated.inputs
  · intro apart
    have breakers : first.policyHash ≠ second.policyHash := by
      rw [hash, otherHash]
      exact fun same => apart (noCollision same)
    refine ⟨apart, breakers, ?_⟩
    intro request other same
    refine breakers (hash_of_key ?_ same)
    rw [hash, otherHash, hashPolicy_length, hashPolicy_length]

/-- The digests of the two texts that are hashed below. -/
def knownDigests : Sha256 where
  hex text :=
    if text = "org agent strict Allow reads only." then
      "dc3b8478935466f5620f3abde9727e0eb03b6fdfb11168ac559368e32f7604c5"
    else if text = "org agent default Deny writes." then
      "1f4ddd126ffd92db9b4d25c4749cdb5544dd0676e3d424fa16cc166585d7dfe9"
    else "6af64cf453be93341d8d7c75badd6c7fc7019e5419bd8e31c3c500f152c33df1"
  length text := by split <;> [rfl; split <;> rfl]

/-- Two domains with a judge each. -/
def judgedBy (judges : List (String × String)) (first second : String) : JudgePolicyBundle where
  judgedDomains := [⟨"a.example".toList, some first⟩, ⟨"b.example".toList, some second⟩]
  judges := judges
  extraPolicy := none
  judgeModel := none

def resolvedFrom (judges : List (String × String)) (first second : String) (host : String) :
    Option ResolvedJudgeRule :=
  (PolicyStore.set knownDigests "org" "agent" [] (judgedBy judges first second)).resolve asciiNames
    "org" "agent" host.toList

/-- One has the policy "mode deny writes", the other is the "strict mode". -/
def strictJudges : List (String × String) :=
  [("strict", "mode deny writes"), ("strict mode", "deny writes")]

theorem strict_hash_shared : ¬ ∀ (judges : List (String × String)) (first second : String)
    (rule other : ResolvedJudgeRule), resolvedFrom judges first second "a.example" = some rule →
      resolvedFrom judges first second "b.example" = some other →
        (rule.judgeName, rule.policy) ≠ (other.judgeName, other.policy) →
          policyHashInput "org" "agent" rule.judgeName rule.policy ≠
            policyHashInput "org" "agent" other.judgeName other.policy := by
  intro apart
  refine apart strictJudges "strict" "strict mode" ⟨"strict", "mode deny writes", "6af64cf453be9334", none⟩
    ⟨"strict mode", "deny writes", "6af64cf453be9334", none⟩ ?_ ?_ ?_ ?_
  · decide +kernel
  · decide +kernel
  · decide
  · decide +kernel

def plainJudges : List (String × String) :=
  [("strict", "Allow reads only."), ("default", "Deny writes.")]

theorem policies_separated_plain : Separated ⟨id, id⟩ "org" "agent"
    ⟨"strict", "Allow reads only.", "dc3b8478935466f5", none⟩
    ⟨"default", "Deny writes.", "1f4ddd126ffd92db", none⟩ := by
  have first : resolvedFrom plainJudges "strict" "default" "a.example" =
      some ⟨"strict", "Allow reads only.", "dc3b8478935466f5", none⟩ := by decide +kernel
  have second : resolvedFrom plainJudges "strict" "default" "b.example" =
      some ⟨"default", "Deny writes.", "1f4ddd126ffd92db", none⟩ := by decide +kernel
  refine (policies_separated_iff ⟨id, id⟩ first second ?_ ?_).mpr ?_
  · decide
  · decide +kernel
  · rintro (⟨words, name, -⟩ | ⟨words, name, -⟩)
    · exact absurd (congrArg (fun text => text.toList.head?) name) (by simp [String.toList_append])
    · exact absurd (congrArg (fun text => text.toList.head?) name) (by simp [String.toList_append])

end Policies

end Lobu.Proxy
