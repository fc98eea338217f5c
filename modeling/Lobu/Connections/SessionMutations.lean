import Lobu.Connections.Sessions

namespace Lobu.Connections

open Lobu.Foundation

variable {ρ : Type} {initial : Option (StoredSession ρ)}

/-! # Mutations of a session

As long as no lock is taken from a caller that has still to write, and no session is replaced
under a mutation that has read it, the operations take effect one after the other.
-/

/-- What an operation makes of the stored session. -/
inductive SessionChange (ρ : Type) where
  | replaced (session : ThreadSession ρ)
  | mutated (update : ThreadSession ρ → ThreadSession ρ)
  | removed

def SessionChange.apply : SessionChange ρ → Option (ThreadSession ρ) → Option (ThreadSession ρ)
  | .replaced session, _ => some session
  | .mutated update, stored => stored.map update
  | .removed, _ => none

/-- The session that is left when the changes are made one after the other. -/
def replay (initial : Option (StoredSession ρ)) (order : List (SessionChange ρ)) : Option (ThreadSession ρ) :=
  order.foldl (fun stored change => change.apply stored) (initial.map StoredSession.session)

theorem replay_concat (order : List (SessionChange ρ)) (change : SessionChange ρ) :
    replay initial (order ++ [change]) = change.apply (replay initial order) := by
  rw [replay, List.foldl_append]
  rfl

def SessionCommand.change? : SessionCommand ρ → Option (SessionChange ρ)
  | .getSession => none
  | .setSession session _ => some (.replaced session)
  | .mutateSession update _ _ => some (.mutated update)
  | .deleteSession _ => some .removed

/-- The change of a call that has succeeded. -/
def succeeded (call : SessionCall ρ) : Option (SessionChange ρ) :=
  match call.rest with
  | .done .stored => call.command.change?
  | .done (.mutated true) => call.command.change?
  | .done .removed => call.command.change?
  | _ => none

/-- No call is under way. -/
def AllDone (calls : SessionCalls ρ) : Prop :=
  ∀ call ∈ calls.members, ∃ reply, call.rest = .done reply

abbrev SessionDialogue (ρ : Type) := List (Exchange (SessionAnswer ρ))

def isGrant : Exchange (SessionAnswer ρ) → Bool
  | ⟨.acquireLock, some _⟩ => true
  | _ => false

def isReading : Exchange (SessionAnswer ρ) → Bool
  | ⟨.getSession, some _⟩ => true
  | _ => false

def isRead : Exchange (SessionAnswer ρ) → Bool
  | ⟨.getSession, _⟩ => true
  | _ => false

/-- The session was not there. -/
def isMiss : Exchange (SessionAnswer ρ) → Bool
  | ⟨.getSession, none⟩ => true
  | _ => false

def isWrite : Exchange (SessionAnswer ρ) → Bool
  | ⟨.setSession _, _⟩ => true
  | ⟨.deleteSession, _⟩ => true
  | _ => false

def SessionCommand.isMutation : SessionCommand ρ → Bool
  | .mutateSession .. => true
  | _ => false

/-- A caller that was given the lock and has still to write, unless it has found nothing to
mutate. -/
def isWorking (call : SessionCall ρ) : Bool :=
  call.said.any isGrant && !call.said.any isWrite &&
    !(call.command.isMutation && call.said.any isMiss)

/-- A mutation between its read and its write. -/
def isMidMutation (call : SessionCall ρ) : Bool :=
  call.command.isMutation && call.said.any isReading && !call.said.any isWrite

/-- No lease has lapsed on a working call where the lock is asked for, and no mutation is under way
where a session is replaced. -/
def mayAnswer (calls : SessionCalls ρ) (moment : AdapterMoment) : Option (SessionCommand ρ × SessionStep ρ) → Bool
  | some (_, .acquireLock) =>
    !calls.shared.lock.isLapsed moment.now || calls.members.all fun call => !isWorking call
  | some (.setSession .., .setSession _) => calls.members.all fun call => !isMidMutation call
  | _ => true

def Orderly : Discipline (SessionCalls ρ) (CrowdEvent (SessionCommand ρ) AdapterMoment)
  | _, .join _ => True
  | calls, .answer place moment => mayAnswer calls moment (calls.asking place) = true

instance (calls : SessionCalls ρ) (event : CrowdEvent (SessionCommand ρ) AdapterMoment) :
    Decidable (Orderly calls event) :=
  match event with
  | .join _ => .isTrue trivial
  | .answer place moment =>
    inferInstanceAs (Decidable (mayAnswer calls moment (calls.asking place) = true))

/-- Locks come first, then a mutation reads, and nothing is written twice. -/
def permits (command : SessionCommand ρ) (said : SessionDialogue ρ) : SessionStep ρ → Prop
  | .acquireLock => said.any isGrant = false ∧ said.any isWrite = false
  | .releaseLock token => ⟨.acquireLock, some token⟩ ∈ said ∧
      (said.any isWrite = true ∨ command.isMutation = true ∧ said.any isMiss = true)
  | .getSession => command.isMutation = true → said.any isGrant = true ∧
      said.any isRead = false ∧ said.any isWrite = false
  | .setSession session => said.any isWrite = false ∧
      ((∃ sessionFirst, command = .setSession session sessionFirst) ∨
        ∃ update sessionFirst retries current, command = .mutateSession update sessionFirst retries ∧
          said.any isGrant = true ∧ said.any isMiss = false ∧
          ⟨.getSession, some current⟩ ∈ said ∧ session = update current)
  | .deleteSession => said.any isWrite = false ∧ said.any isGrant = true ∧
      ∃ retries, command = .deleteSession retries
  | _ => True

/-- A call that succeeds has written, and any other has not. -/
def Ends (command : SessionCommand ρ) (said : SessionDialogue ρ) : SessionReply ρ → Prop
  | .stored => said.any isWrite = true
  | .mutated changed => said.any isWrite = changed
  | .removed => said.any isWrite = true
  | .found _ => said.any isWrite = false ∧ command.change? = none
  | .unavailable => said.any isWrite = false

abbrev Abides {α : Type} (command : SessionCommand ρ) (leaves : SessionDialogue ρ → α → Prop)
    (said : SessionDialogue ρ) (call : SessionProcess ρ α) : Prop :=
  Process.Keeps (permits command) (fun _ _ => True) leaves said call

variable {command : SessionCommand ρ} {said : SessionDialogue ρ}

theorem isMiss_of_unread (unread : said.any isRead = false) : said.any isMiss = false := by
  rw [List.any_eq_false] at unread ⊢
  rintro ⟨request, answer⟩ heard
  have other := unread _ heard
  cases request <;> simp_all [isRead, isMiss]

theorem isReading_of_unread (unread : said.any isRead = false) : said.any isReading = false := by
  rw [List.any_eq_false] at unread ⊢
  rintro ⟨request, answer⟩ heard
  have other := unread _ heard
  cases request <;> simp_all [isRead, isReading]

/-- A caller that holds the lock and has neither read nor written. -/
structure Entered (said : SessionDialogue ρ) (token : Nat) : Prop where
  granted : ⟨.acquireLock, some token⟩ ∈ said
  lockedOut : said.any isGrant = true
  unread : said.any isRead = false
  unwritten : said.any isWrite = false

/-- The end of an operation under the lock. -/
def Leaves (command : SessionCommand ρ) (token : Nat) (said : SessionDialogue ρ) (reply : SessionReply ρ) : Prop :=
  Ends command said reply ∧ ⟨.acquireLock, some token⟩ ∈ said ∧
    (said.any isWrite = true ∨ command.isMutation = true ∧ said.any isMiss = true)

theorem locked_abides {operation : SessionProcess ρ (SessionReply ρ)} (retries : Nat)
    (abides : ∀ said token, Entered said token → Abides command (Leaves command token) said operation) :
    Abides command (Ends command) [] (locked operation retries) := by
  have asked : ∀ (attempts : Nat) (said : SessionDialogue ρ), said.any isGrant = false →
      said.any isRead = false → said.any isWrite = false →
      Abides command (fun said result => Ends command said (result.getD .unavailable)) said
        (withSessionLock operation attempts) := by
    intro attempts
    induction attempts with
    | zero =>
      intro said _ _ unwritten
      exact unwritten
    | succ attempts ih =>
      intro said ungranted unread unwritten
      refine .answered ⟨ungranted, unwritten⟩ fun token _ => ?_
      cases token with
      | none =>
        exact ih _ (by simpa [isGrant] using ungranted) (by simpa [isRead] using unread)
          (by simpa [isWrite] using unwritten)
      | some token =>
        have entered : Entered (⟨.acquireLock, some token⟩ :: said) token :=
          ⟨List.mem_cons_self, rfl, by simpa [isRead] using unread,
            by simpa [isWrite] using unwritten⟩
        refine (abides _ token entered).bind fun after reply left => ?_
        refine .answered ⟨left.2.1, left.2.2⟩ fun _ _ => ?_
        have ends := left.1
        cases reply <;> simpa [Ends, isWrite] using ends
  exact (asked (retries + 1) [] rfl rfl rfl).bind fun after result ends => ends

theorem setSession_abides {leaves : SessionDialogue ρ → Unit → Prop} {session : ThreadSession ρ}
    (sessionFirst : Bool) (permitted : permits command said (.setSession session))
    (stays : ∀ channelId conversationId, permits command
      (⟨.setThread channelId conversationId, ()⟩ :: said) (.setSession session))
    (ends : leaves (⟨.setThread session.channelId session.conversationId, ()⟩ ::
      ⟨.setSession session, ()⟩ :: said) ()) (endsToo : leaves (⟨.setSession session, ()⟩ ::
      ⟨.setThread session.channelId session.conversationId, ()⟩ :: said) ()) :
    Abides command leaves said (setSession sessionFirst session) := by
  cases sessionFirst with
  | true => exact .answered permitted fun _ _ => .answered trivial fun _ _ => ends
  | false => exact .answered trivial fun _ _ => .answered (stays _ _) fun _ _ => endsToo

theorem mutateUnlocked_abides (update : ThreadSession ρ → ThreadSession ρ) (sessionFirst : Bool)
    (retries token : Nat) (entered : Entered said token) :
    Abides (.mutateSession update sessionFirst retries)
      (Leaves (.mutateSession update sessionFirst retries) token) said (mutateUnlocked sessionFirst update) := by
  refine .answered (fun _ => ⟨entered.lockedOut, entered.unread, entered.unwritten⟩) fun current _ => ?_
  have granted := entered.granted
  have unwritten := entered.unwritten
  have lockedOut := entered.lockedOut
  have unread := isMiss_of_unread entered.unread
  cases current with
  | none =>
    refine ⟨by simpa [Ends, isWrite] using unwritten, List.mem_cons_of_mem _ granted, .inr ?_⟩
    exact ⟨rfl, by simp [isMiss]⟩
  | some current =>
    have written : Abides (.mutateSession update sessionFirst retries)
        (fun after _ => after.any isWrite = true ∧ ⟨.acquireLock, some token⟩ ∈ after)
        (⟨.getSession, some current⟩ :: said) (setSession sessionFirst (update current)) := by
      refine setSession_abides sessionFirst ?_ ?_ ?_ ?_
      · refine ⟨by simpa [isWrite] using unwritten, .inr ⟨update, sessionFirst, retries, current,
          rfl, ?_, by simpa [isMiss] using unread, by simp, rfl⟩⟩
        simp [lockedOut]
      · intro channelId conversationId
        refine ⟨by simpa [isWrite] using unwritten, .inr ⟨update, sessionFirst, retries, current,
          rfl, ?_, by simpa [isMiss] using unread, by simp, rfl⟩⟩
        simp [lockedOut]
      · exact ⟨by simp [isWrite], by simp [granted]⟩
      · exact ⟨by simp [isWrite], by simp [granted]⟩
    exact written.bind fun after _ left => ⟨left.1, left.2, .inl left.1⟩

theorem deleteSessionUnlocked_abides (retries token : Nat) (entered : Entered said token) :
    Abides (.deleteSession retries) (Leaves (.deleteSession retries) token) said deleteSessionUnlocked := by
  have granted := entered.granted
  have unwritten := entered.unwritten
  have lockedOut := entered.lockedOut
  refine .answered (fun mutation => by contradiction) fun session _ => ?_
  refine .answered ⟨by simpa [isWrite] using unwritten, by simp [lockedOut], retries, rfl⟩
    fun _ _ => ?_
  have left : ∀ more : SessionDialogue ρ, Leaves (.deleteSession retries) token
      (more ++ ⟨.deleteSession, ()⟩ :: ⟨.getSession, session⟩ :: said) .removed := by
    intro more
    refine ⟨by simp [Ends, isWrite], by simp [granted], .inl (by simp [isWrite])⟩
  cases session with
  | none => exact left []
  | some session =>
    simp only
    split
    · exact left []
    · exact .answered trivial fun _ _ => left [_]

theorem call_abides (command : SessionCommand ρ) : Abides command (Ends command) [] command.call := by
  cases command with
  | getSession =>
    refine .answered (fun mutation => by contradiction) fun session _ => ?_
    exact ⟨rfl, rfl⟩
  | setSession session sessionFirst =>
    have written : Abides (.setSession session sessionFirst)
        (fun after _ => after.any isWrite = true) [] (Connections.setSession sessionFirst session) :=
      setSession_abides sessionFirst ⟨rfl, .inl ⟨_, rfl⟩⟩ (fun _ _ => ⟨rfl, .inl ⟨_, rfl⟩⟩) rfl rfl
    exact written.bind fun after _ done => done
  | mutateSession update sessionFirst retries =>
    exact locked_abides retries fun said token entered =>
      mutateUnlocked_abides update sessionFirst retries token entered
  | deleteSession retries =>
    exact locked_abides retries fun said token entered =>
      deleteSessionUnlocked_abides retries token entered

theorem abides {allowed : Discipline (SessionCalls ρ) (CrowdEvent (SessionCommand ρ) AdapterMoment)}
    {calls : SessionCalls ρ} (reached : (sessionStore initial).Reachable allowed calls)
    {call : SessionCall ρ} (present : call ∈ calls.members) :
    Abides call.command (Ends call.command) call.said call.rest :=
  (call_abides call.command).after (Crowd.went reached call present) fun _ _ _ => trivial

/-- The change of a call that has written. -/
def written (call : SessionCall ρ) : Option (SessionChange ρ) :=
  if call.said.any isWrite then call.command.change? else none

theorem written_of_done {call : SessionCall ρ} {reply : SessionReply ρ}
    (abides : Abides call.command (Ends call.command) call.said call.rest)
    (done : call.rest = .done reply) : written call = succeeded call := by
  rw [done] at abides
  have ends : Ends call.command call.said reply := abides
  rw [written, succeeded, done]
  cases reply with
  | found session => simp [ends.1]
  | stored => simp [show call.said.any isWrite = true from ends]
  | mutated changed =>
    rw [show call.said.any isWrite = changed from ends]
    cases changed <;> simp
  | removed => simp [show call.said.any isWrite = true from ends]
  | unavailable => simp [show call.said.any isWrite = false from ends]

section Lists

variable {α β : Type} {column : α → Option β} {rows : List α} {place : Nat} {row other : α}

theorem filterMap_set_same (found : rows[place]? = some row) (same : column other = column row) :
    (rows.set place other).filterMap column = rows.filterMap column := by
  induction rows generalizing place with
  | nil => rfl
  | cons first rows ih =>
    cases place with
    | zero =>
      cases found
      rw [List.set_cons_zero, List.filterMap_cons, List.filterMap_cons, same]
    | succ place =>
      rw [List.set_cons_succ, List.filterMap_cons, List.filterMap_cons, ih found]

theorem filterMap_set_new {value : β} (found : rows[place]? = some row) (before : column row = none)
    (after : column other = some value) :
    ((rows.set place other).filterMap column).Perm (rows.filterMap column ++ [value]) := by
  induction rows generalizing place with
  | nil => simp at found
  | cons first rows ih =>
    cases place with
    | zero =>
      cases found
      rw [List.set_cons_zero, List.filterMap_cons_some after, List.filterMap_cons_none before]
      exact (List.perm_append_singleton _ _).symm
    | succ place =>
      rw [List.set_cons_succ]
      have rest := ih found
      cases changed : column first with
      | none => rwa [List.filterMap_cons_none changed, List.filterMap_cons_none changed]
      | some entry =>
        rw [List.filterMap_cons_some changed, List.filterMap_cons_some changed]
        exact rest.cons entry

end Lists

/-- What the rows hold, expired or not. -/
def SessionRows.held? (rows : SessionRows ρ) : Option (ThreadSession ρ) :=
  rows.stored.map StoredSession.session

def Granted (token : Nat) (call : SessionCall ρ) : Prop := ⟨.acquireLock, some token⟩ ∈ call.said

/-- At most one call is working, under the lease that it was given; a mutation has read what is
still there; and the session is what the calls that have written make of it in some order. -/
structure Serial (initial : Option (StoredSession ρ)) (calls : SessionCalls ρ) : Prop where
  tokens : ∀ call ∈ calls.members, ∀ token, Granted token call → token < calls.shared.lock.drawn
  apart : ∀ (place other : Nat) (call second : SessionCall ρ) (token : Nat),
    calls.members[place]? = some call → calls.members[other]? = some second →
      Granted token call → Granted token second → place = other
  held : ∀ call ∈ calls.members, isWorking call = true → ∀ token, Granted token call →
    calls.shared.lock.lease.map Lease.token = some token
  midway : ∀ call ∈ calls.members, isMidMutation call = true → isWorking call = true
  reads : ∀ call ∈ calls.members, isMidMutation call = true → ∀ session,
    ⟨.getSession, some session⟩ ∈ call.said → calls.shared.held? = some session
  order : ∃ order, order.Perm (calls.members.filterMap written) ∧
    calls.shared.held? = replay initial order

variable {calls : SessionCalls ρ}

theorem exists_granted {call : SessionCall ρ} (granted : call.said.any isGrant = true) :
    ∃ token, Granted token call := by
  obtain ⟨⟨request, answer⟩, heard, grant⟩ := List.any_eq_true.mp granted
  cases request with
  | acquireLock =>
    cases answer with
    | none => contradiction
    | some token => exact ⟨token, heard⟩
  | _ => contradiction

theorem Serial.working_unique (serial : Serial initial calls) {place other : Nat}
    {call second : SessionCall ρ} (found : calls.members[place]? = some call)
    (foundToo : calls.members[other]? = some second) (working : isWorking call = true)
    (workingToo : isWorking second = true) : place = other := by
  have grant : ∀ call : SessionCall ρ, isWorking call = true → ∃ token, Granted token call := by
    intro call working
    simp only [isWorking, Bool.and_eq_true] at working
    exact exists_granted working.1.1
  obtain ⟨token, granted⟩ := grant call working
  obtain ⟨otherToken, grantedToo⟩ := grant second workingToo
  have lease := serial.held call (List.mem_of_getElem? found) working token granted
  have leaseToo := serial.held second (List.mem_of_getElem? foundToo) workingToo _ grantedToo
  rw [lease] at leaseToo
  cases leaseToo
  exact serial.apart place other call second token found foundToo granted grantedToo

variable {shared : SessionRows ρ} {call going : SessionCall ρ}

theorem Serial.advance (serial : Serial initial calls) {place : Nat} (found : calls.members[place]? = some call)
    (drawn : calls.shared.lock.drawn ≤ shared.lock.drawn)
    (grants : ∀ token, Granted token going → Granted token call ∨
      calls.shared.lock.drawn ≤ token ∧ token < shared.lock.drawn)
    (held : isWorking going = true → ∀ token, Granted token going → shared.lock.lease.map Lease.token = some token)
    (heldOthers : ∀ other second, other ≠ place → calls.members[other]? = some second →
      isWorking second = true → ∀ token, Granted token second → shared.lock.lease.map Lease.token = some token)
    (midway : isMidMutation going = true → isWorking going = true) (reads : isMidMutation going = true → ∀ session,
      ⟨.getSession, some session⟩ ∈ going.said → shared.held? = some session)
    (readsOthers : ∀ other second, other ≠ place → calls.members[other]? = some second →
      isMidMutation second = true → shared.held? = calls.shared.held?)
    (order : ∃ order, order.Perm ((calls.members.set place going).filterMap written) ∧
      shared.held? = replay initial order) : Serial initial ⟨shared, calls.members.set place going⟩ := by
  have others : ∀ second ∈ calls.members.set place going, second = going ∨
      ∃ other, other ≠ place ∧ calls.members[other]? = some second := by
    intro second present
    obtain ⟨other, foundToo⟩ := List.mem_iff_getElem?.mp present
    rcases getElem?_set_cases foundToo with ⟨-, same⟩ | ⟨different, old⟩
    · exact .inl same
    · exact .inr ⟨other, different, old⟩
  refine ⟨?_, ?_, ?_, ?_, ?_, order⟩
  · intro second present token granted
    rcases others second present with rfl | ⟨other, -, old⟩
    · rcases grants token granted with before | fresh
      · exact (serial.tokens call (List.mem_of_getElem? found) token before).trans_le drawn
      · exact fresh.2
    · exact (serial.tokens second (List.mem_of_getElem? old) token granted).trans_le drawn
  · have old : ∀ other second token, other ≠ place → calls.members[other]? = some second →
        Granted token second → Granted token going → False := by
      intro other second token different foundToo granted grantedToo
      rcases grants token grantedToo with before | fresh
      · exact different (serial.apart other place second call token foundToo found granted before)
      · have below := serial.tokens second (List.mem_of_getElem? foundToo) token granted
        omega
    intro first other one second token foundOne foundOther grantedOne grantedOther
    rcases getElem?_set_cases foundOne with ⟨rfl, rfl⟩ | ⟨different, oldOne⟩
    · rcases getElem?_set_cases foundOther with ⟨same, -⟩ | ⟨different, oldOther⟩
      · exact same.symm
      · exact absurd grantedOne (old other second token different oldOther grantedOther)
    · rcases getElem?_set_cases foundOther with ⟨rfl, rfl⟩ | ⟨-, oldOther⟩
      · exact absurd grantedOther (old first one token different oldOne grantedOne)
      · exact serial.apart first other one second token oldOne oldOther grantedOne grantedOther
  · intro second present working token granted
    rcases others second present with rfl | ⟨other, different, old⟩
    · exact held working token granted
    · exact heldOthers other second different old working token granted
  · intro second present mid
    rcases others second present with rfl | ⟨other, different, old⟩
    · exact midway mid
    · exact serial.midway second (List.mem_of_getElem? old) mid
  · intro second present mid session heard
    rcases others second present with rfl | ⟨other, different, old⟩
    · exact reads mid session heard
    · change shared.held? = some session
      rw [readsOthers other second different old mid]
      exact serial.reads second (List.mem_of_getElem? old) mid session heard

theorem Serial.quiet (serial : Serial initial calls) {place : Nat} (found : calls.members[place]? = some call)
    (lock : shared.lock = calls.shared.lock) (stored : shared.held? = calls.shared.held?)
    (grants : ∀ token, Granted token going → Granted token call)
    (working : isWorking going = true → isWorking call = true)
    (midway : isMidMutation going = true → isWorking going = true)
    (reads : isMidMutation going = true → ∀ session, ⟨.getSession, some session⟩ ∈ going.said →
      calls.shared.held? = some session) (same : written going = written call) :
    Serial initial ⟨shared, calls.members.set place going⟩ := by
  obtain ⟨order, perm, left⟩ := serial.order
  refine serial.advance found (by rw [lock]) (fun token granted => .inl (grants token granted))
    ?_ ?_ midway ?_ (fun _ _ _ _ _ => stored) ⟨order, ?_, by rw [stored, left]⟩
  · intro going token granted
    rw [lock]
    exact serial.held call (List.mem_of_getElem? found) (working going) token (grants token granted)
  · intro other second _ foundToo workingToo token granted
    rw [lock]
    exact serial.held second (List.mem_of_getElem? foundToo) workingToo token granted
  · intro mid session heard
    rw [stored]
    exact reads mid session heard
  · rw [filterMap_set_same found same]
    exact perm

theorem Serial.writes (serial : Serial initial calls) {place : Nat} {change : SessionChange ρ} (found : calls.members[place]? = some call)
    (lock : shared.lock = calls.shared.lock) (grants : ∀ token, Granted token going → Granted token call)
    (wrote : going.said.any isWrite = true) (before : call.said.any isWrite = false)
    (changed : going.command.change? = some change) (applied : shared.held? = change.apply calls.shared.held?)
    (alone : ∀ other second, other ≠ place → calls.members[other]? = some second → isMidMutation second = false) :
    Serial initial ⟨shared, calls.members.set place going⟩ := by
  obtain ⟨order, perm, left⟩ := serial.order
  refine serial.advance found (by rw [lock]) (fun token granted => .inl (grants token granted))
    ?_ ?_ ?_ ?_ ?_ ⟨order ++ [change], ?_, by rw [applied, left, replay_concat]⟩
  · intro working
    simp [isWorking, wrote] at working
  · intro other second _ foundToo workingToo token granted
    rw [lock]
    exact serial.held second (List.mem_of_getElem? foundToo) workingToo token granted
  · intro mid
    simp [isMidMutation, wrote] at mid
  · intro mid
    simp [isMidMutation, wrote] at mid
  · intro other second different foundToo mid
    rw [alone other second different foundToo] at mid
    contradiction
  · have unwritten : written call = none := by simp [written, before]
    have new : written going = some change := by simp [written, wrote, changed]
    exact (perm.append_right _).trans (filterMap_set_new found unwritten new).symm

variable {rest later : SessionProcess ρ (SessionReply ρ)}

theorem Granted.of_other {token : Nat} {exchange : Exchange (SessionAnswer ρ)} (ungranted : isGrant exchange = false)
    (granted : Granted token ⟨command, exchange :: said, later⟩) : Granted token ⟨command, said, rest⟩ := by
  rcases List.mem_cons.mp granted with same | heard
  · rw [← same] at ungranted
    contradiction
  · exact heard

section

variable (serial : Serial initial calls)
include serial

theorem Serial.unmarked {place : Nat} {exchange : Exchange (SessionAnswer ρ)} (found : calls.members[place]? = some ⟨command, said, rest⟩)
    (lock : shared.lock = calls.shared.lock) (stored : shared.held? = calls.shared.held?)
    (grant : isGrant exchange = false) (read : isRead exchange = false) (write : isWrite exchange = false) :
    Serial initial ⟨shared, calls.members.set place ⟨command, exchange :: said, later⟩⟩ := by
  have present := List.mem_of_getElem? found
  have miss : isMiss exchange = false := by
    obtain ⟨request, answer⟩ := exchange
    cases request <;> simp_all [isRead, isMiss]
  have reading : isReading exchange = false := by
    obtain ⟨request, answer⟩ := exchange
    cases request <;> simp_all [isRead, isReading]
  have working : isWorking (⟨command, exchange :: said, later⟩ : SessionCall ρ) =
      isWorking ⟨command, said, rest⟩ := by
    simp [isWorking, grant, write, miss]
  have mid : isMidMutation (⟨command, exchange :: said, later⟩ : SessionCall ρ) =
      isMidMutation ⟨command, said, rest⟩ := by
    simp [isMidMutation, reading, write]
  refine serial.quiet found lock stored (fun token => Granted.of_other grant) ?_ ?_ ?_ ?_
  · rw [working]
    exact id
  · rw [working, mid]
    exact serial.midway _ present
  · rw [mid]
    intro going session heard
    rcases List.mem_cons.mp heard with same | before
    · rw [← same] at read
      contradiction
    · exact serial.reads _ present going session before
  · simp [written, write]

theorem Serial.idle {place : Nat} {moment : AdapterMoment}
    (asking : calls.asking place = some (command, .acquireLock)) (orderly : Orderly calls (.answer place moment))
    (free : calls.shared.lock.lease = none ∨ calls.shared.lock.isLapsed moment.now = true) :
    ∀ call ∈ calls.members, isWorking call = false := by
  rcases free with none | lapsed
  · intro call member
    by_contra working
    rw [Bool.not_eq_false] at working
    have granted := working
    simp only [isWorking, Bool.and_eq_true] at granted
    obtain ⟨token, granted⟩ := exists_granted granted.1.1
    have lease := serial.held call member working token granted
    rw [none] at lease
    contradiction
  · simp only [Orderly, asking, mayAnswer, lapsed, Bool.not_true, Bool.false_or, List.all_eq_true,
      Bool.not_eq_true'] at orderly
    exact orderly

theorem Serial.enters {place : Nat} {expiresAt : Int}
    (found : calls.members[place]? = some ⟨command, said, rest⟩) (ungranted : said.any isGrant = false)
    (idle : ∀ call ∈ calls.members, isWorking call = false) (lock : shared.lock =
      ⟨some ⟨calls.shared.lock.drawn, expiresAt⟩, calls.shared.lock.drawn + 1⟩)
    (stored : shared.held? = calls.shared.held?) :
    Serial initial ⟨shared, calls.members.set place
      ⟨command, ⟨.acquireLock, some calls.shared.lock.drawn⟩ :: said, later⟩⟩ := by
  have present := List.mem_of_getElem? found
  have still : ∀ call ∈ calls.members, isMidMutation call = false := by
    intro call member
    by_contra mid
    rw [Bool.not_eq_false] at mid
    have working := serial.midway call member mid
    rw [idle call member] at working
    contradiction
  have mid : isMidMutation (⟨command, ⟨.acquireLock, some calls.shared.lock.drawn⟩ :: said,
      later⟩ : SessionCall ρ) = false := by
    have before := still _ present
    simpa [isMidMutation, isReading, isWrite] using before
  obtain ⟨order, perm, left⟩ := serial.order
  refine serial.advance found (by rw [lock]; exact Nat.le_succ _) ?_ ?_ ?_ ?_ ?_ ?_ ⟨order, ?_, by rw [stored, left]⟩
  · intro token granted
    rcases List.mem_cons.mp granted with same | heard
    · cases same
      rw [lock]
      exact .inr ⟨le_refl _, Nat.lt_succ_self _⟩
    · exact .inl heard
  · intro _ token granted
    rcases List.mem_cons.mp granted with same | heard
    · cases same
      rw [lock]
      rfl
    · rw [List.any_eq_false] at ungranted
      exact absurd rfl (ungranted _ heard)
  · intro other second _ foundToo workingToo
    rw [idle second (List.mem_of_getElem? foundToo)] at workingToo
    contradiction
  · intro going
    rw [mid] at going
    contradiction
  · intro going
    rw [mid] at going
    contradiction
  · intro _ _ _ _ _
    exact stored
  · rw [filterMap_set_same found (by simp [written, isWrite])]
    exact perm

theorem Serial.leaves {place token : Nat} (found : calls.members[place]? = some ⟨command, said, rest⟩)
    (permitted : permits command said (.releaseLock token)) (lock : shared.lock = calls.shared.lock.release token)
    (stored : shared.held? = calls.shared.held?) :
    Serial initial ⟨shared, calls.members.set place ⟨command, ⟨.releaseLock token, ()⟩ :: said, later⟩⟩ := by
  have present := List.mem_of_getElem? found
  have settled : isWorking (⟨command, said, rest⟩ : SessionCall ρ) = false := by
    rcases permitted.2 with wrote | ⟨mutation, miss⟩
    · simp [isWorking, wrote]
    · simp [isWorking, mutation, miss]
  have working : isWorking (⟨command, ⟨.releaseLock token, ()⟩ :: said, later⟩ : SessionCall ρ) = false := by
    simpa [isWorking, isGrant, isWrite, isMiss] using settled
  have still : isMidMutation (⟨command, ⟨.releaseLock token, ()⟩ :: said, later⟩ : SessionCall ρ) = false := by
    by_contra mid
    rw [Bool.not_eq_false] at mid
    have before : isMidMutation (⟨command, said, rest⟩ : SessionCall ρ) = true := by
      simpa [isMidMutation, isReading, isWrite] using mid
    rw [serial.midway _ present before] at settled
    contradiction
  obtain ⟨order, perm, left⟩ := serial.order
  refine serial.advance found (by rw [lock, StateLock.drawn_release])
    (fun token granted => .inl (Granted.of_other rfl granted)) ?_ ?_ ?_ ?_
    (fun _ _ _ _ _ => stored) ⟨order, ?_, by rw [stored, left]⟩
  · rw [working]
    intro going
    contradiction
  · intro other second different foundToo workingToo own granted
    have lease := serial.held second (List.mem_of_getElem? foundToo) workingToo own granted
    have apart : own ≠ token := by
      rintro rfl
      exact different (serial.apart other place second _ own foundToo found granted permitted.1)
    rw [lock, StateLock.release_other lease apart]
    exact lease
  · rw [still]
    intro going
    contradiction
  · rw [still]
    intro going
    contradiction
  · rw [filterMap_set_same found (by simp [written, isWrite])]
    exact perm

theorem Serial.looks {place : Nat}
    (found : calls.members[place]? = some ⟨command, said, rest⟩) (permitted : permits command said .getSession)
    (lock : shared.lock = calls.shared.lock) (stored : shared.stored = calls.shared.stored) :
    Serial initial ⟨shared, calls.members.set place ⟨command, ⟨.getSession, shared.live?⟩ :: said, later⟩⟩ := by
  have present := List.mem_of_getElem? found
  have kept : shared.held? = calls.shared.held? := by
    rw [SessionRows.held?, stored, SessionRows.held?]
  -- a mutation reads once, so what it has read is what it finds here
  have first : isMidMutation (⟨command, ⟨.getSession, shared.live?⟩ :: said, later⟩ :
      SessionCall ρ) = true → ∃ session, shared.live? = some session ∧
        said.any isGrant = true ∧ said.any isRead = false ∧ said.any isWrite = false := by
    intro mid
    simp only [isMidMutation, Bool.and_eq_true, List.any_cons, Bool.or_eq_true] at mid
    obtain ⟨granted, unread, unwritten⟩ := permitted mid.1.1
    rcases mid.1.2 with finds | earlier
    · cases live : shared.live? with
      | none =>
        rw [live] at finds
        contradiction
      | some session => exact ⟨session, rfl, granted, unread, unwritten⟩
    · rw [isReading_of_unread unread] at earlier
      contradiction
  refine serial.quiet found lock kept (fun token => Granted.of_other rfl) ?_ ?_ ?_ ?_
  · intro working
    simp only [isWorking, List.any_cons, isGrant, isWrite, Bool.false_or, Bool.and_eq_true,
      Bool.not_eq_true', Bool.and_eq_false_iff, Bool.or_eq_false_iff] at working ⊢
    exact ⟨working.1, working.2.imp id And.right⟩
  · intro mid
    obtain ⟨session, live, granted, unread, unwritten⟩ := first mid
    rw [live]
    simp only [isWorking, List.any_cons, isGrant, isWrite, isMiss, Bool.false_or, granted,
      unwritten, isMiss_of_unread unread, Bool.and_false, Bool.not_false, Bool.and_self]
  · intro mid session heard
    obtain ⟨_, _, -, unread, -⟩ := first mid
    rcases List.mem_cons.mp heard with same | earlier
    · have finds : shared.live? = some session := by
        injection same with _ answers
        exact answers.symm
      obtain ⟨row, fresh, rfl⟩ := Option.map_eq_some_iff.mp finds
      rw [← kept, SessionRows.held?, (Option.filter_eq_some_iff.mp fresh).1]
      rfl
    · rw [List.any_eq_false] at unread
      exact absurd rfl (unread _ earlier)
  · simp [written, isWrite]

theorem Serial.answer {place : Nat} {moment : AdapterMoment}
    {request : SessionStep ρ} {next : SessionAnswer ρ request → SessionProcess ρ (SessionReply ρ)}
    {answer : SessionAnswer ρ request} (found : calls.members[place]? = some ⟨command, said, .ask request next⟩)
    (permitted : permits command said request) (orderly : Orderly calls (.answer place moment))
    (served : SessionRows.serve calls.shared request moment = some (answer, shared)) :
    Serial initial ⟨shared, calls.members.set place ⟨command, ⟨request, answer⟩ :: said, next answer⟩⟩ := by
  have asking := Crowd.asking_of_found found
  have performed := SessionRows.serve_performs served
  have present := List.mem_of_getElem? found
  -- a second mutation under way would be a second working call
  have alone : isWorking (⟨command, said, .ask request next⟩ : SessionCall ρ) = true →
      ∀ other second, other ≠ place → calls.members[other]? = some second →
        isMidMutation second = false := by
    intro working other second different foundToo
    by_contra mid
    rw [Bool.not_eq_false] at mid
    have workingToo := serial.midway second (List.mem_of_getElem? foundToo) mid
    exact different (serial.working_unique foundToo found workingToo working)
  cases request with
  | acquireLock =>
    rcases StateLock.acquire_cases calls.shared.lock moment.now
      (moment.clock + SESSION_LOCK_LEASE_MS) with refused | ⟨free, taken⟩
    · simp only [SessionRows.perform, refused, Prod.mk.injEq] at performed
      obtain ⟨rfl, rfl⟩ := performed
      exact serial.unmarked found rfl rfl rfl rfl rfl
    · simp only [SessionRows.perform, taken, Prod.mk.injEq] at performed
      obtain ⟨rfl, rfl⟩ := performed
      exact serial.enters found permitted.1 (serial.idle asking orderly free) rfl rfl
  | releaseLock token =>
    cases performed
    exact serial.leaves found permitted rfl rfl
  | getSession =>
    cases performed
    exact serial.looks found permitted rfl rfl
  | setSession session =>
    cases performed
    obtain ⟨unwritten, ⟨sessionFirst, rfl⟩ |
      ⟨update, sessionFirst, retries, current, rfl, granted, hit, heard, rfl⟩⟩ := permitted
    · refine serial.writes found rfl (fun token => Granted.of_other rfl) (by simp [isWrite]) unwritten rfl rfl ?_
      intro other second _ foundToo
      simp only [Orderly, asking, mayAnswer, List.all_eq_true, Bool.not_eq_true'] at orderly
      exact orderly second (List.mem_of_getElem? foundToo)
    · have read : said.any isReading = true := List.any_eq_true.mpr ⟨_, heard, rfl⟩
      have mid : isMidMutation (⟨.mutateSession update sessionFirst retries, said,
          .ask (.setSession (update current)) next⟩ : SessionCall ρ) = true := by
        simp [isMidMutation, SessionCommand.isMutation, read, unwritten]
      refine serial.writes found rfl (fun token => Granted.of_other rfl) (by simp [isWrite])
        unwritten rfl ?_ (alone (serial.midway _ present mid))
      have stored := serial.reads _ present mid current heard
      rw [SessionChange.apply, stored]
      rfl
  | setThread channelId conversationId =>
    cases performed
    exact serial.unmarked found rfl rfl rfl rfl rfl
  | deleteSession =>
    cases performed
    obtain ⟨unwritten, granted, retries, rfl⟩ := permitted
    refine serial.writes found rfl (fun token => Granted.of_other rfl) (by simp [isWrite])
      unwritten rfl rfl (alone ?_)
    simp [isWorking, granted, unwritten, SessionCommand.isMutation]
  | deleteThread channelId conversationId =>
    cases performed
    exact serial.unmarked found rfl rfl rfl rfl rfl

theorem Serial.join (command : SessionCommand ρ) :
    Serial initial { calls with members := calls.members ++ [⟨command, [], command.call⟩] } := by
  have known : ∀ second ∈ calls.members ++ [(⟨command, [], command.call⟩ : SessionCall ρ)],
      second ∈ calls.members ∨ second.said = [] := by
    intro second present
    rcases List.mem_append.mp present with old | new
    · exact .inl old
    · rw [List.mem_singleton.mp new]
      exact .inr rfl
  have ungranted : ∀ (second : SessionCall ρ) (token : Nat), second.said = [] → ¬ Granted token second := by
    intro second token new granted
    rw [Granted, new] at granted
    contradiction
  obtain ⟨order, perm, left⟩ := serial.order
  refine ⟨?_, ?_, ?_, ?_, ?_, order, ?_, left⟩
  · intro second present token granted
    rcases known second present with old | new
    · exact serial.tokens second old token granted
    · exact absurd granted (ungranted second token new)
  · intro place other call second token found foundToo granted grantedToo
    rcases getElem?_append_singleton_cases found with ⟨-, rfl⟩ | old
    · exact absurd granted (ungranted _ token rfl)
    · rcases getElem?_append_singleton_cases foundToo with ⟨-, rfl⟩ | oldToo
      · exact absurd grantedToo (ungranted _ token rfl)
      · exact serial.apart place other call second token old oldToo granted grantedToo
  · intro second present working token granted
    rcases known second present with old | new
    · exact serial.held second old working token granted
    · exact absurd granted (ungranted second token new)
  · intro second present mid
    rcases known second present with old | new
    · exact serial.midway second old mid
    · simp [isMidMutation, new] at mid
  · intro second present mid session heard
    rcases known second present with old | new
    · exact serial.reads second old mid session heard
    · rw [new] at heard
      contradiction
  · simp only [List.filterMap_append]
    have nothing : [(⟨command, [], command.call⟩ : SessionCall ρ)].filterMap written = [] := rfl
    rw [nothing, List.append_nil]
    exact perm

end

theorem serial_of_reachable (reached : (sessionStore initial).Reachable Orderly calls) : Serial initial calls := by
  apply reached.invariant
  · rintro calls ⟨⟨lock, stored⟩, none⟩
    refine ⟨?_, ?_, ?_, ?_, ?_, [], ?_, ?_⟩
    · simp [none]
    · simp [none]
    · simp [none]
    · simp [none]
    · simp [none]
    · simp [none]
    · rw [SessionRows.held?, stored]
      rfl
  · intro before event after reached serial orderly stepped
    rcases Crowd.step_cases stepped with ⟨command, rfl, rfl⟩ |
      ⟨place, moment, command, said, request, next, answer, shared, rfl, found, served, rfl⟩
    · exact serial.join command
    · have permitted := abides reached (List.mem_of_getElem? found)
      exact serial.answer found permitted.1 orderly served

section Examples

def addField (field : Nat) (session : ThreadSession (List Nat)) : ThreadSession (List Nat) :=
  { session with fields := session.fields ++ [field] }

def emptySession : StoredSession (List Nat) := ⟨⟨"channel", "thread", []⟩, 1000000⟩

def addFieldCall (field : Nat) : SessionCommand (List Nat) := .mutateSession (addField field) true 0

def beforeCalls : SessionCalls (List Nat) := ⟨{ stored := some emptySession }, []⟩

/-- The second mutation takes the lock when the lease of the first is up, reads what the first has
read, and writes after it. -/
def lapsedRun : List (CrowdEvent (SessionCommand (List Nat)) AdapterMoment) :=
  [.join (addFieldCall 1), .join (addFieldCall 2),
    .answer 0 ⟨0, 0⟩, .answer 0 ⟨0, 0⟩,
    .answer 1 ⟨30000, 30000⟩, .answer 1 ⟨30000, 30000⟩,
    .answer 0 ⟨30000, 30000⟩, .answer 0 ⟨30000, 30000⟩, .answer 0 ⟨30000, 30000⟩,
    .answer 1 ⟨30000, 30000⟩, .answer 1 ⟨30000, 30000⟩, .answer 1 ⟨30000, 30000⟩]

def lapsedCalls : Option (SessionCalls (List Nat)) :=
  (sessionStore (some emptySession)).replay unrestricted beforeCalls lapsedRun

theorem orders_of_pair {α : Type} {first second : α} {order : List α}
    (perm : order.Perm [first, second]) : order = [first, second] ∨ order = [second, first] := by
  match order, perm.length_eq with
  | [one, other], _ =>
    rcases List.mem_pair.mp (perm.subset List.mem_cons_self) with rfl | rfl
    · have rest := (List.perm_cons one).mp perm
      rw [List.perm_singleton, List.singleton_inj] at rest
      exact .inl (by rw [rest])
    · have rest := (List.perm_cons one).mp (perm.trans (List.Perm.swap one first []))
      rw [List.perm_singleton, List.singleton_inj] at rest
      exact .inr (by rw [rest])

theorem allDone_of_rests {calls : SessionCalls (List Nat)} {first second : SessionReply (List Nat)}
    (done : calls.members.map Member.rest = [.done first, .done second]) : AllDone calls := by
  intro call present
  have member : call.rest ∈ calls.members.map Member.rest := List.mem_map_of_mem present
  rw [done] at member
  rcases List.mem_pair.mp member with same | same
  · exact ⟨first, same⟩
  · exact ⟨second, same⟩

/-- The second mutation waits for the first. -/
def waitingRun : List (CrowdEvent (SessionCommand (List Nat)) AdapterMoment) :=
  [.join (addFieldCall 1), .join (.mutateSession (addField 2) false 1),
    .answer 0 ⟨0, 0⟩, .answer 1 ⟨0, 0⟩, .answer 0 ⟨0, 0⟩, .answer 0 ⟨1, 1⟩, .answer 0 ⟨1, 1⟩,
    .answer 0 ⟨1, 1⟩, .answer 1 ⟨25, 25⟩, .answer 1 ⟨25, 25⟩, .answer 1 ⟨26, 26⟩,
    .answer 1 ⟨26, 26⟩, .answer 1 ⟨26, 26⟩]

end Examples

end Lobu.Connections
