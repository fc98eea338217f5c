import Lobu.OAuth.Grants

namespace Lobu.OAuth

open Lobu.Foundation

/-! # Codes and refresh tokens are used once -/

section Tables

variable {database after : Database} {statement : Statement} {choice : Choice}
variable {answer : statement.Answer} {token stored : StoredOAuthToken}

section

variable (served : database.serve statement choice = some (answer, after))
include served

theorem serve_ids : after.tokens.map (·.id) = database.tokens.map (·.id) ++ statement.newTokens.map (·.id) := by
  obtain ⟨kept, outlives, written, -⟩ := tokens_written served
  rw [written, List.map_append, List.map_map]
  exact congrArg (· ++ _) (List.map_congr_left fun row _ => (outlives row).id.symm)

theorem serve_once (once : (database.tokens.map (·.id)).Nodup) : (after.tokens.map (·.id)).Nodup := by
  rw [serve_ids served]
  obtain ⟨-, -, -, nothing | accepted⟩ := tokens_written served
  · simpa [nothing] using once
  · simp only [Database.refuses, Bool.not_eq_true', decide_eq_false_iff_not, not_not, List.map_append] at accepted
    exact accepted.1

theorem stays (member : stored ∈ database.tokens) : ∃ row ∈ after.tokens, Outlives stored row := by
  obtain ⟨kept, outlives, written, -⟩ := tokens_written served
  rw [written]
  exact ⟨kept stored, List.mem_append_left _ (List.mem_map_of_mem member), outlives stored⟩

theorem newTokens_stored (new : token ∈ statement.newTokens) : token ∈ after.tokens := by
  obtain ⟨kept, -, written, -⟩ := tokens_written served
  rw [written]
  exact List.mem_append_right _ new

theorem inserted_new (once : (database.tokens.map (·.id)).Nodup) (new : token ∈ statement.newTokens)
    (member : stored ∈ database.tokens) : stored.id ≠ token.id := by
  have all := serve_once served once
  rw [serve_ids served, List.nodup_append] at all
  exact all.2.2 _ (List.mem_map_of_mem member) _ (List.mem_map_of_mem new)

end

theorem rotated_revoked {id : String} {rows : List StoredOAuthToken} {choice : Choice}
    {answer : Unit} (served : database.serve (.rotate id rows) choice = some (answer, after))
    (member : token ∈ after.tokens) (same : token.id = id) : token.revokedAt ≠ none ∨ token ∈ rows := by
  simp only [Database.serve] at served
  split at served
  · cases served
  · cases served
    refine (List.mem_append.mp member).imp_left fun old => ?_
    obtain ⟨row, present, rfl⟩ := RowUpdate.mem_run.mp old
    rw [RowUpdate.onRow] at same ⊢
    split
    · exact Option.some_ne_none _
    · rename_i other
      rw [if_neg other] at same
      exact absurd (by simpa [revocation] using same) other

end Tables

section Dialogues

variable {hashing : Hashing} {baseUrl : String} {crowd : Calls}
variable {allowed : Discipline Calls (CrowdEvent Command Choice)}
variable {place : Nat} {earlier before : Dialogue} {first second : Statement}

theorem Asked.permitted (reached : (provider hashing baseUrl).Reachable allowed crowd)
    (asked : Crowd.Asked crowd place earlier first) :
    ∃ member, crowd.members[place]? = some member ∧ earlier ⊆ member.said ∧
      permitted hashing member.command earlier first := by
  obtain ⟨member, answer, found, heard⟩ := asked
  exact ⟨member, found, ((List.suffix_cons _ _).trans heard).subset,
    asked_permitted reached (List.mem_of_getElem? found) heard⟩

theorem permitted_first {command : Command} {said : Dialogue}
    (asked : permitted hashing command said first) (issues : first.issues = true) :
    ∀ exchange ∈ said, exchange.request.issues = false := by
  cases first with
  | insertTokens rows => exact Issues.first asked
  | rotate id rows => exact Rotates.first asked
  | _ => cases issues

theorem issued_once (reached : (provider hashing baseUrl).Reachable allowed crowd)
    (asked : Crowd.Asked crowd place earlier first) (other : Crowd.Asked crowd place before second)
    (issues : first.issues = true) (issuesToo : second.issues = true) : earlier = before ∧ first = second := by
  obtain ⟨member, answer, found, heard⟩ := asked
  obtain ⟨again, answered, foundToo, heardToo⟩ := other
  cases found.symm.trans foundToo
  have present := List.mem_of_getElem? found
  -- of two different ones the longer would have the other in what was said earlier
  rcases List.suffix_or_suffix_of_suffix heard heardToo with shorter | longer
  · rcases List.suffix_cons_iff.mp shorter with same | within
    · cases same
      exact ⟨rfl, rfl⟩
    · have none := permitted_first (asked_permitted reached present heardToo) issuesToo _
        (within.subset List.mem_cons_self)
      rw [issues] at none
      contradiction
  · rcases List.suffix_cons_iff.mp longer with same | within
    · cases same
      exact ⟨rfl, rfl⟩
    · have none := permitted_first (asked_permitted reached present heard) issues _ (within.subset List.mem_cons_self)
      rw [issuesToo] at none
      contradiction

end Dialogues

/-- Every token that has been inserted is still there, under an id of its own. -/
structure Inserted (crowd : Calls) : Prop where
  once : (crowd.shared.tokens.map (·.id)).Nodup
  stored : ∀ place earlier statement, Crowd.Asked crowd place earlier statement →
    ∀ row ∈ statement.newTokens, ∃ present ∈ crowd.shared.tokens, Outlives row present
  apart : ∀ place earlier statement, Crowd.Asked crowd place earlier statement →
    ∀ row ∈ statement.newTokens, ∀ other before second, Crowd.Asked crowd other before second →
      ∀ rival ∈ second.newTokens, row.id = rival.id → place = other

section Inserting

variable {hashing : Hashing} {baseUrl : String} {crowd after : Calls}
variable {allowed : Discipline Calls (CrowdEvent Command Choice)}
variable {event : CrowdEvent Command Choice}

theorem inserted (reached : (provider hashing baseUrl).Reachable allowed crowd) : Inserted crowd := by
  refine reached.invariant ?_ ?_
  · intro crowd starts
    obtain ⟨⟨codes, devices, tokens⟩, members⟩ := starts
    refine ⟨by simp [tokens], ?_, ?_⟩
    · intro place earlier statement asked
      obtain ⟨member, answer, found, -⟩ := asked
      simp [members] at found
    · intro place earlier statement asked
      obtain ⟨member, answer, found, -⟩ := asked
      simp [members] at found
  · intro before event after _ inserted _ stepped
    -- the rows of before stay, whatever the step does
    have kept : (after.shared.tokens.map (·.id)).Nodup ∧ ∀ present ∈ before.shared.tokens,
        ∃ row ∈ after.shared.tokens, Outlives present row := by
      rcases Crowd.step_cases stepped with ⟨command, rfl, rfl⟩ |
        ⟨place, choice, command, said, statement, next, answer, database, rfl, -, served, rfl⟩
      · exact ⟨inserted.once, fun present member => ⟨present, member, .refl present⟩⟩
      · exact ⟨serve_once served inserted.once, fun present member => stays served member⟩
    have old : ∀ place earlier statement, Crowd.Asked before place earlier statement →
        ∀ row ∈ statement.newTokens, ∃ present ∈ after.shared.tokens, Outlives row present := by
      intro place earlier statement asked row among
      obtain ⟨present, stored, outlives⟩ := inserted.stored place earlier statement asked row among
      obtain ⟨later, member, further⟩ := kept.2 present stored
      exact ⟨later, member, outlives.trans further⟩
    -- an id that has been inserted before is refused
    have fresh : ∀ place earlier statement, Crowd.Asked before place earlier statement →
        ∀ row ∈ statement.newTokens, ∀ (second : Statement) (choice : Choice)
          (answer : second.Answer),
          before.shared.serve second choice = some (answer, after.shared) →
            ∀ rival ∈ second.newTokens, row.id ≠ rival.id := by
      intro place earlier statement asked row among second choice answer served rival new same
      obtain ⟨present, stored, outlives⟩ := inserted.stored place earlier statement asked row among
      exact inserted_new served inserted.once new stored (outlives.id.symm.trans same)
    refine ⟨kept.1, ?_, ?_⟩
    · intro place earlier statement asked row among
      rcases Crowd.asked_of_step stepped asked with was | ⟨choice, command, next, answer, rfl, -, served⟩
      · exact old place earlier statement was row among
      · exact ⟨row, newTokens_stored served among, .refl row⟩
    · intro place earlier statement asked row among other said second askedToo rival new same
      rcases Crowd.asked_of_step stepped asked with was | ⟨_, _, _, _, here, -, served⟩ <;>
        rcases Crowd.asked_of_step stepped askedToo with wasToo | ⟨_, _, _, _, there, -, servedToo⟩
      · exact inserted.apart _ _ _ was row among _ _ _ wasToo rival new same
      · exact absurd same (fresh _ _ _ was row among _ _ _ servedToo rival new)
      · exact absurd same.symm (fresh _ _ _ wasToo rival new _ _ _ served row among)
      · cases here.symm.trans there
        rfl

end Inserting

def Statement.rotated? : Statement → Option String
  | .rotate id _ => some id
  | _ => none

/-- Random values are distinct. -/
def distinct (database : Database) (_ : Command) (statement : Statement) (choice : Choice) : Prop :=
  statement = .randomBytes → choice.value ∉ database.drawn

instance (database : Database) (command : Command) (statement : Statement) (choice : Choice) :
    Decidable (distinct database command statement choice) :=
  inferInstanceAs (Decidable (_ → _))

/-- A refresh that rotates its token finds it unrevoked still. -/
def heeds (database : Database) (command : Command) (statement : Statement) (choice : Choice) : Prop :=
  distinct database command statement choice ∧
    ∀ id ∈ statement.rotated?, ∃ row ∈ database.tokens, row.id = id ∧ row.revokedAt = none

instance (database : Database) (command : Command) (statement : Statement) (choice : Choice) :
    Decidable (heeds database command statement choice) :=
  inferInstanceAs (Decidable (_ ∧ _))

/-- The token is there, and every row under its id is revoked. -/
def Revoked (database : Database) (id : String) : Prop :=
  (∃ row ∈ database.tokens, row.id = id) ∧
    ∀ row ∈ database.tokens, row.id = id → row.revokedAt ≠ none

section Refreshing

variable {hashing : Hashing} {baseUrl : String} {crowd after : Calls}
variable {allowed : Discipline Calls (CrowdEvent Command Choice)}
variable {event : CrowdEvent Command Choice} {id : String}

theorem heeds_of_step {place : Nat} {choice : Choice} {command : Command} {said : Dialogue}
    {statement : Statement} {next : statement.Answer → Call Reply}
    (permitted : Crowd.obeys heeds crowd (.answer place choice))
    (found : crowd.members[place]? = some ⟨command, said, .ask statement next⟩) :
    heeds crowd.shared command statement choice :=
  permitted _ (Crowd.asking_of_found found)

theorem Revoked.served {database later : Database} {statement : Statement} {choice : Choice}
    {answer : statement.Answer} (revoked : Revoked database id)
    (served : database.serve statement choice = some (answer, later))
    (once : (database.tokens.map (·.id)).Nodup) : Revoked later id := by
  obtain ⟨⟨present, member, same⟩, all⟩ := revoked
  obtain ⟨still, memberLater, alike⟩ := stays served member
  refine ⟨⟨still, memberLater, alike.id.symm.trans same⟩, ?_⟩
  intro row stored named
  rcases serve_tokens served stored with ⟨old, was, outlives⟩ | new
  · exact outlives.revoked (all old was (outlives.id.trans named))
  · exact absurd (same.trans named.symm) (inserted_new served once new member)

theorem Revoked.stepped (revoked : Revoked crowd.shared id) (inserted : Inserted crowd)
    (stepped : (provider hashing baseUrl).step crowd event = some after) : Revoked after.shared id := by
  rcases Crowd.step_cases stepped with ⟨command, rfl, rfl⟩ |
    ⟨place, choice, command, said, statement, next, answer, database, rfl, -, served, rfl⟩
  · exact revoked
  · exact revoked.served served inserted.once

variable {rows : List StoredOAuthToken}

theorem revoked_by_rotation {database later : Database} {choice : Choice} {answer : Unit} {row : StoredOAuthToken}
    (served : database.serve (.rotate id rows) choice = some (answer, later))
    (once : (database.tokens.map (·.id)).Nodup) (stored : row ∈ database.tokens)
    (same : row.id = id) : Revoked later id := by
  obtain ⟨still, member, alike⟩ := stays served stored
  refine ⟨⟨still, member, alike.id.symm.trans same⟩, ?_⟩
  intro other present named
  rcases rotated_revoked served present named with revoked | new
  · exact revoked
  · exact absurd (same.trans named.symm) (inserted_new served once new stored)

/-- The refresh token has yielded tokens here. -/
def RotatedFrom (crowd : Calls) (id : String) (place : Nat) (earlier : Dialogue) : Prop :=
  ∃ rows, Crowd.Asked crowd place earlier (.rotate id rows)

/-- Rotated tokens are revoked, and have been rotated at one place only. -/
structure RotatedOnce (crowd : Calls) : Prop where
  revoked : ∀ id place earlier, RotatedFrom crowd id place earlier → Revoked crowd.shared id
  once : ∀ id place earlier other before, RotatedFrom crowd id place earlier →
    RotatedFrom crowd id other before → place = other

theorem live_when_rotated {place : Nat} {choice : Choice} {command : Command} {said : Dialogue} {next : Unit → Call Reply}
    (permitted : Crowd.obeys heeds crowd (.answer place choice))
    (found : crowd.members[place]? = some ⟨command, said, .ask (.rotate id rows) next⟩) :
    ∃ row ∈ crowd.shared.tokens, row.id = id ∧ row.revokedAt = none :=
  (heeds_of_step permitted found).2 id rfl

theorem not_revoked_when_rotated {place : Nat} {choice : Choice} {command : Command}
    {said : Dialogue} {next : Unit → Call Reply} (permitted : Crowd.obeys heeds crowd (.answer place choice))
    (found : crowd.members[place]? = some ⟨command, said, .ask (.rotate id rows) next⟩) :
    ¬ Revoked crowd.shared id := by
  obtain ⟨row, stored, same, live⟩ := live_when_rotated permitted found
  exact fun revoked => revoked.2 row stored same live

theorem rotatedOnce (reached : (provider hashing baseUrl).Reachable (Crowd.obeys heeds) crowd) :
    RotatedOnce crowd := by
  refine reached.invariant ?_ ?_
  · intro crowd starts
    have nothing : ∀ id place earlier, ¬ RotatedFrom crowd id place earlier := by
      intro id place earlier rotated
      obtain ⟨rows, member, answer, found, -⟩ := rotated
      simp [starts.2] at found
    exact ⟨fun id place earlier rotated => absurd rotated (nothing _ _ _),
      fun id place earlier _ _ rotated => absurd rotated (nothing _ _ _)⟩
  · intro before event after reached rotated permitted stepped
    have inserted := inserted reached
    refine ⟨?_, ?_⟩
    · intro id place earlier rotation
      obtain ⟨rows, asked⟩ := rotation
      rcases Crowd.asked_of_step stepped asked with was | ⟨choice, _, _, _, rfl, found, served⟩
      · exact (rotated.revoked id place earlier ⟨rows, was⟩).stepped inserted stepped
      · obtain ⟨row, stored, same, -⟩ := live_when_rotated permitted found
        exact revoked_by_rotation served inserted.once stored same
    · intro id place earlier other said rotation rotationToo
      obtain ⟨rows, asked⟩ := rotation
      obtain ⟨rowsToo, askedToo⟩ := rotationToo
      rcases Crowd.asked_of_step stepped asked with was | ⟨_, _, _, _, here, found, -⟩ <;>
        rcases Crowd.asked_of_step stepped askedToo with wasToo | ⟨_, _, _, _, there, foundToo, -⟩
      · exact rotated.once id place earlier other said ⟨rows, was⟩ ⟨rowsToo, wasToo⟩
      · subst there
        exact absurd (rotated.revoked id place earlier ⟨rows, was⟩) (not_revoked_when_rotated permitted foundToo)
      · subst here
        exact absurd (rotated.revoked id other said ⟨rowsToo, wasToo⟩) (not_revoked_when_rotated permitted found)
      · cases here.symm.trans there
        rfl

theorem never_rotated_again (reached : (provider hashing baseUrl).Reachable (Crowd.obeys heeds) crowd)
    (later : (provider hashing baseUrl).Later (Crowd.obeys heeds) crowd after)
    (revoked : Revoked crowd.shared id) : Revoked after.shared id ∧
      ∀ place earlier, RotatedFrom after id place earlier → RotatedFrom crowd id place earlier := by
  induction later with
  | refl => exact ⟨revoked, fun _ _ rotated => rotated⟩
  | tail earlier moved ih =>
    obtain ⟨event, permitted, stepped⟩ := moved
    refine ⟨ih.1.stepped (inserted (reached.later earlier)) stepped, ?_⟩
    intro place said rotation
    obtain ⟨rows, asked⟩ := rotation
    rcases Crowd.asked_of_step stepped asked with was | ⟨_, _, _, _, rfl, found, -⟩
    · exact ih.2 place said ⟨rows, was⟩
    · exact absurd ih.1 (not_revoked_when_rotated permitted found)

end Refreshing

section Codes

variable {hashing : Hashing} {baseUrl : String} {crowd : Calls}
variable {allowed : Discipline Calls (CrowdEvent Command Choice)}
variable {database later : Database} {statement : Statement} {choice : Choice}
variable {answer : statement.Answer} {row stored : StoredAuthorizationCode} {code : String}

theorem serve_codes_once (served : database.serve statement choice = some (answer, later))
    (once : (database.codes.map (·.code)).Nodup) : (later.codes.map (·.code)).Nodup := by
  obtain ⟨kept, written, keeps⟩ | ⟨new, rfl, absent, written⟩ := codes_written served
  · rw [written, List.map_map]
    exact (List.map_congr_left fun row _ => (keeps row).1) ▸ once
  · rw [written]
    exact nodup_append_absent once absent

theorem used_stays (served : database.serve statement choice = some (answer, later))
    (member : stored ∈ database.codes) (used : stored.usedAt ≠ none) : stored ∈ later.codes := by
  obtain ⟨kept, written, keeps⟩ | ⟨new, -, -, written⟩ := codes_written served
  · rw [written]
    exact List.mem_map.mpr ⟨stored, member, (keeps stored).2.2 used⟩
  · rw [written]
    exact List.mem_append_left _ member

theorem useCode_takes (served : database.serve (.useCode code) choice = some (some row, later)) :
    (∃ unused ∈ database.codes, unused.code = code ∧ unused.usedAt = none) ∧
      ∃ stored ∈ later.codes, stored.code = code ∧ stored.usedAt ≠ none := by
  simp only [Database.serve, Option.some.injEq, Prod.mk.injEq] at served
  obtain ⟨found, rfl⟩ := served
  obtain ⟨unused, held, -⟩ := Option.map_eq_some_iff.mp found
  have selected := List.find?_some held
  have member := List.mem_of_find?_eq_some held
  have fits : unused.code = code ∧ unused.expiresAt > choice.now ∧ unused.usedAt = none :=
    of_decide_eq_true selected
  refine ⟨⟨unused, member, fits.1, fits.2.2⟩, (codeUse code choice.now).sets unused, ?_, fits.1,
    Option.some_ne_none _⟩
  exact RowUpdate.mem_run.mpr ⟨unused, member, RowUpdate.onRow_selected selected⟩

/-- Codes that have been taken are used, and have been taken at one place only. -/
structure CodesOnce (crowd : Calls) : Prop where
  codes : (crowd.shared.codes.map (·.code)).Nodup
  used : ∀ place code row, Crowd.Told crowd place ⟨.useCode code, some row⟩ →
    ∃ stored ∈ crowd.shared.codes, stored.code = code ∧ stored.usedAt ≠ none
  once : ∀ place code row other rowToo, Crowd.Told crowd place ⟨.useCode code, some row⟩ →
    Crowd.Told crowd other ⟨.useCode code, some rowToo⟩ → place = other

theorem codesOnce (reached : (provider hashing baseUrl).Reachable allowed crowd) : CodesOnce crowd := by
  refine reached.invariant ?_ ?_
  · intro crowd starts
    obtain ⟨⟨codes, devices, tokens⟩, members⟩ := starts
    have nothing : ∀ place exchange, ¬ Crowd.Told crowd place exchange := by
      intro place exchange told
      obtain ⟨member, found, -⟩ := told
      simp [members] at found
    exact ⟨by simp [codes], fun _ _ _ told => absurd told (nothing _ _),
      fun _ _ _ _ _ told => absurd told (nothing _ _)⟩
  · intro before event after _ invariant _ stepped
    have kept : (after.shared.codes.map (·.code)).Nodup ∧ ∀ stored ∈ before.shared.codes,
        stored.usedAt ≠ none → stored ∈ after.shared.codes := by
      rcases Crowd.step_cases stepped with ⟨command, rfl, rfl⟩ |
        ⟨place, choice, command, said, statement, next, answer, database, rfl, -, served, rfl⟩
      · exact ⟨invariant.codes, fun stored member _ => member⟩
      · exact ⟨serve_codes_once served invariant.codes, fun stored member used => used_stays served member used⟩
    -- a code that has been taken is not to be had again
    have spent : ∀ place code row, Crowd.Told before place ⟨.useCode code, some row⟩ →
        ∀ (choice : Choice) (other : StoredAuthorizationCode),
          before.shared.serve (.useCode code) choice ≠ some (some other, after.shared) := by
      intro place code row told choice other served
      obtain ⟨stored, member, same, used⟩ := invariant.used place code row told
      obtain ⟨⟨unused, present, alike, free⟩, -⟩ := useCode_takes served
      have one := RowUpdate.eq_of_column invariant.codes member present (same.trans alike.symm)
      rw [one] at used
      exact used free
    refine ⟨kept.1, ?_, ?_⟩
    · intro place code row told
      rcases Crowd.told_of_step stepped told with was | ⟨_, _, _, _, -, -, served⟩
      · obtain ⟨stored, member, same, used⟩ := invariant.used place code row was
        exact ⟨stored, kept.2 stored member used, same, used⟩
      · exact (useCode_takes served).2
    · intro place code row other rowToo told toldToo
      rcases Crowd.told_of_step stepped told with was | ⟨_, _, _, _, here, -, served⟩ <;>
        rcases Crowd.told_of_step stepped toldToo with wasToo | ⟨_, _, _, _, there, -, servedToo⟩
      · exact invariant.once place code row other rowToo was wasToo
      · exact absurd servedToo (spent place code row was _ _)
      · exact absurd served (spent other code rowToo wasToo _ _)
      · cases here.symm.trans there
        rfl

end Codes

section Devices

variable {hashing : Hashing} {baseUrl : String} {crowd : Calls}
variable {database later : Database} {statement : Statement} {choice : Choice}
variable {answer : statement.Answer} {row stored : StoredDeviceCode}
variable {deviceCode clientId : String}

/-- Rows of devices keep their codes until they are deleted; a new one has not been there. -/
theorem devices_written (served : database.serve statement choice = some (answer, later)) :
    (∃ kept : StoredDeviceCode → StoredDeviceCode, List.Sublist later.devices (database.devices.map kept) ∧
      ∀ row, (kept row).deviceCode = row.deviceCode) ∨
    ∃ new, statement = .insertDevice new ∧ (∀ row ∈ database.devices, row.deviceCode ≠ new.deviceCode) ∧
      later.devices = database.devices ++ [new] := by
  cases statement with
  | insertDevice new =>
    simp only [Database.serve] at served
    split at served <;> cases served
    rename_i absent
    have apart : ∀ row ∈ database.devices, row.deviceCode ≠ new.deviceCode ∧ row.userCode ≠ new.userCode := by
      simpa using absent
    exact .inr ⟨new, rfl, fun row member => (apart row member).1, rfl⟩
  | approveDevice | denyDevice =>
    cases served
    exact .inl ⟨_, List.Sublist.refl _, RowUpdate.onRow_column _ fun _ => rfl⟩
  | claimDevice deviceCode clientId =>
    cases served
    exact .inl ⟨fun row => row, by rw [List.map_id']; exact List.filter_sublist, fun _ => rfl⟩
  | _ =>
    refine .inl ⟨fun row => row, ?_, fun _ => rfl⟩
    rw [devices_kept served (by simp [Statement.written]), List.map_id']

theorem serve_deviceCodes (served : database.serve statement choice = some (answer, later))
    (member : row ∈ later.devices) :
    (∃ old ∈ database.devices, old.deviceCode = row.deviceCode) ∨ statement = .insertDevice row := by
  obtain ⟨kept, left, keeps⟩ | ⟨new, rfl, -, written⟩ := devices_written served
  · obtain ⟨old, present, rfl⟩ := List.mem_map.mp (left.subset member)
    exact .inl ⟨old, present, (keeps old).symm⟩
  · rw [written, List.mem_append, List.mem_singleton] at member
    exact member.imp (fun old => ⟨row, old, rfl⟩) fun added => by rw [added]

theorem serve_devices_once (served : database.serve statement choice = some (answer, later))
    (once : (database.devices.map (·.deviceCode)).Nodup) : (later.devices.map (·.deviceCode)).Nodup := by
  obtain ⟨kept, left, keeps⟩ | ⟨new, rfl, absent, written⟩ := devices_written served
  · refine List.Nodup.sublist (left.map _) ?_
    rw [List.map_map]
    exact (List.map_congr_left fun row _ => keeps row) ▸ once
  · rw [written]
    exact nodup_append_absent once absent

theorem claimDevice_takes (served : database.serve (.claimDevice deviceCode clientId) choice = some (some row, later))
    (once : (database.devices.map (·.deviceCode)).Nodup) :
    row ∈ database.devices ∧ row.deviceCode = deviceCode ∧ row.clientId = clientId ∧
      ∀ left ∈ later.devices, left.deviceCode ≠ deviceCode := by
  simp only [Database.serve, Option.some.injEq, Prod.mk.injEq] at served
  obtain ⟨found, rfl⟩ := served
  have member := List.mem_of_find?_eq_some found
  have claimable := List.find?_some found
  have fits : row.deviceCode = deviceCode ∧ row.clientId = clientId ∧ row.status = .approved ∧
      row.expiresAt > choice.now := of_decide_eq_true claimable
  refine ⟨member, fits.1, fits.2.1, ?_⟩
  intro left remains same
  obtain ⟨present, other⟩ := mem_deleteWhere.mp remains
  rw [RowUpdate.eq_of_column once present member (same.trans fits.1.symm), claimable] at other
  cases other

theorem drawn_grows (served : database.serve statement choice = some (answer, later)) :
    database.drawn ⊆ later.drawn := by
  cases statement with
  | randomBytes =>
    cases served
    exact List.subset_cons_self _ _
  | insertTokens | rotate | insertCode | insertDevice =>
    simp only [Database.serve] at served
    split at served <;> cases served
    exact List.Subset.refl _
  | _ =>
    cases served
    exact List.Subset.refl _

/-- The device code has been created at this place. -/
def CreatedAt (crowd : Calls) (place : Nat) (deviceCode : String) : Prop :=
  ∃ created : StoredDeviceCode, created.deviceCode = deviceCode ∧
    Crowd.Told crowd place ⟨.insertDevice created, ()⟩

/-- Random values are drawn at one place only; a device code is created at one place and gone
once it has been taken. -/
structure DevicesOnce (crowd : Calls) : Prop where
  drawn : ∀ place value, Crowd.Told crowd place ⟨.randomBytes, value⟩ → value ∈ crowd.shared.drawn
  apart : ∀ place value other, Crowd.Told crowd place ⟨.randomBytes, value⟩ →
    Crowd.Told crowd other ⟨.randomBytes, value⟩ → place = other
  devices : (crowd.shared.devices.map (·.deviceCode)).Nodup
  created : ∀ row ∈ crowd.shared.devices, ∃ place, CreatedAt crowd place row.deviceCode
  gone : ∀ place deviceCode clientId row,
    Crowd.Told crowd place ⟨.claimDevice deviceCode clientId, some row⟩ →
      (∃ creator, CreatedAt crowd creator deviceCode) ∧
        ∀ left ∈ crowd.shared.devices, left.deviceCode ≠ deviceCode
  once : ∀ place deviceCode clientId row other client rowToo,
    Crowd.Told crowd place ⟨.claimDevice deviceCode clientId, some row⟩ →
      Crowd.Told crowd other ⟨.claimDevice deviceCode client, some rowToo⟩ → place = other

theorem creates_new {place : Nat} {command : Command} {said : Dialogue}
    {next : Unit → Call Reply} (reached : (provider hashing baseUrl).Reachable
      (Crowd.obeys heeds) crowd) (devicesOnce : DevicesOnce crowd)
    (found : crowd.members[place]? = some ⟨command, said, .ask (.insertDevice row) next⟩)
    (other : Nat) : ¬ CreatedAt crowd other row.deviceCode := by
  intro creation
  obtain ⟨created, same, told⟩ := creation
  have asks := asking_permitted reached (List.mem_of_getElem? found)
  obtain ⟨member, earlier, foundToo, heard⟩ := told.asked
  have asked := asked_permitted reached (List.mem_of_getElem? foundToo) heard
  have drewToo : Crowd.Told crowd other ⟨.randomBytes, row.deviceCode⟩ := by
    refine ⟨member, foundToo, ((List.suffix_cons _ _).trans heard).subset ?_⟩
    rw [← same]
    exact asked.2.2.1
  cases devicesOnce.apart place row.deviceCode other ⟨_, found, asks.2.2.1⟩ drewToo
  cases found.symm.trans foundToo
  have preliminary := asks.2.2.2 _ (heard.subset List.mem_cons_self)
  cases preliminary

theorem devicesOnce (reached : (provider hashing baseUrl).Reachable (Crowd.obeys heeds) crowd) :
    DevicesOnce crowd := by
  refine reached.invariant ?_ ?_
  · intro crowd starts
    obtain ⟨⟨codes, devices, tokens⟩, members⟩ := starts
    have nothing : ∀ place exchange, ¬ Crowd.Told crowd place exchange := by
      intro place exchange told
      obtain ⟨member, found, -⟩ := told
      simp [members] at found
    exact ⟨fun _ _ told => absurd told (nothing _ _), fun _ _ _ told => absurd told (nothing _ _),
      by simp [devices], by simp [devices], fun _ _ _ _ told => absurd told (nothing _ _),
      fun _ _ _ _ _ _ _ told => absurd told (nothing _ _)⟩
  · intro before event after reached invariant permitted stepped
    have grown := Crowd.grown_of_step stepped
    have kept : before.shared.drawn ⊆ after.shared.drawn ∧ (after.shared.devices.map (·.deviceCode)).Nodup := by
      rcases Crowd.step_cases stepped with ⟨command, rfl, rfl⟩ |
        ⟨place, choice, command, said, statement, next, answer, database, rfl, -, served, rfl⟩
      · exact ⟨List.Subset.refl _, invariant.devices⟩
      · exact ⟨drawn_grows served, serve_devices_once served invariant.devices⟩
    have createdLater : ∀ place deviceCode, CreatedAt before place deviceCode →
        CreatedAt after place deviceCode := fun place deviceCode creation => by
      obtain ⟨created, same, told⟩ := creation
      exact ⟨created, same, told.grown grown⟩
    -- the codes that are there after the step are those of before and the one it creates
    have origin : ∀ row ∈ after.shared.devices, (∃ old ∈ before.shared.devices, old.deviceCode = row.deviceCode) ∨
          (∃ place, CreatedAt after place row.deviceCode) ∧
            ∀ place, ¬ CreatedAt before place row.deviceCode := by
      intro row member
      rcases Crowd.step_cases stepped with ⟨command, rfl, rfl⟩ |
        ⟨place, choice, command, said, statement, next, answer, database, rfl, found, served, rfl⟩
      · exact .inl ⟨row, member, rfl⟩
      · rcases serve_deviceCodes served member with old | rfl
        · exact .inl old
        · refine .inr ⟨⟨place, row, rfl, _, List.getElem?_set_self
            (List.getElem?_eq_some_iff.mp found).1, List.mem_cons_self⟩, ?_⟩
          exact creates_new reached invariant found
    have taken : ∀ place deviceCode clientId row,
        Crowd.Told before place ⟨.claimDevice deviceCode clientId, some row⟩ →
          ∀ (choice : Choice) (client : String) (other : StoredDeviceCode),
            before.shared.serve (.claimDevice deviceCode client) choice ≠
              some (some other, after.shared) := by
      intro place deviceCode clientId row told choice client other served
      obtain ⟨member, same, -⟩ := claimDevice_takes served invariant.devices
      exact (invariant.gone place deviceCode clientId row told).2 other member same
    refine ⟨?_, ?_, kept.2, ?_, ?_, ?_⟩
    · intro place value told
      rcases Crowd.told_of_step stepped told with was | ⟨_, _, _, _, -, -, served⟩
      · exact kept.1 (invariant.drawn place value was)
      · simp only [Database.serve, Option.some.injEq, Prod.mk.injEq] at served
        rw [← served.2, ← served.1]
        exact List.mem_cons_self
    · intro place value other told toldToo
      have fresh : ∀ place, Crowd.Told before place ⟨.randomBytes, value⟩ →
          ∀ (here : Nat) (choice : Choice) (command : Command) (said : Dialogue)
            (next : String → Call Reply), event = .answer here choice →
              before.members[here]? = some ⟨command, said, .ask .randomBytes next⟩ →
                before.shared.serve .randomBytes choice ≠ some (value, after.shared) := by
        intro place was here choice command said next same found served
        subst same
        simp only [Database.serve, Option.some.injEq, Prod.mk.injEq] at served
        have new := (heeds_of_step permitted found).1 rfl
        rw [served.1] at new
        exact new (invariant.drawn place value was)
      rcases Crowd.told_of_step stepped told with was | ⟨_, _, _, _, here, found, served⟩ <;>
        rcases Crowd.told_of_step stepped toldToo with
          wasToo | ⟨_, _, _, _, there, foundToo, servedToo⟩
      · exact invariant.apart place value other was wasToo
      · exact absurd servedToo (fresh place was _ _ _ _ _ there foundToo)
      · exact absurd served (fresh other wasToo _ _ _ _ _ here found)
      · cases here.symm.trans there
        rfl
    · intro row member
      rcases origin row member with ⟨old, was, same⟩ | ⟨creation, -⟩
      · obtain ⟨place, creation⟩ := invariant.created old was
        rw [same] at creation
        exact ⟨place, createdLater place _ creation⟩
      · exact creation
    · intro place deviceCode clientId row told
      rcases Crowd.told_of_step stepped told with was | ⟨_, _, _, _, -, -, served⟩
      · obtain ⟨⟨creator, creation⟩, gone⟩ := invariant.gone place deviceCode clientId row was
        refine ⟨⟨creator, createdLater creator _ creation⟩, ?_⟩
        intro left member same
        rcases origin left member with ⟨old, present, alike⟩ | ⟨-, new⟩
        · exact gone old present (alike.trans same)
        · rw [same] at new
          exact new creator creation
      · obtain ⟨member, same, -, gone⟩ := claimDevice_takes served invariant.devices
        obtain ⟨creator, creation⟩ := invariant.created row member
        rw [same] at creation
        exact ⟨⟨creator, createdLater creator _ creation⟩, gone⟩
    · intro place deviceCode clientId row other client rowToo told toldToo
      rcases Crowd.told_of_step stepped told with was | ⟨_, _, _, _, here, -, served⟩ <;>
        rcases Crowd.told_of_step stepped toldToo with wasToo | ⟨_, _, _, _, there, -, servedToo⟩
      · exact invariant.once _ _ _ _ _ _ _ was wasToo
      · exact absurd servedToo (taken _ _ _ _ was _ _ _)
      · exact absurd served (taken _ _ _ _ wasToo _ _ _)
      · cases here.symm.trans there
        rfl

end Devices

end Lobu.OAuth
