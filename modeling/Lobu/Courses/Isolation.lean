import Lobu.Courses.Evidence
import Lobu.Courses.Dispatch

namespace Lobu.Courses

open Lobu.Foundation

/-! # Course isolation

What a message carries when the gate lets it go on.  The gate reads the answers
of the resolver, of the bundle and of the memory search; a message that waits
for a scheduled wake can bring a context along.
-/

section Heard

variable {α : Type} (read : Exchange Answer → Option α)

/-- What is read in a dialogue, the earliest first. -/
def heard (said : CourseDialogue) : List α := said.reverse.filterMap read

@[simp] theorem heard_nil : heard read [] = [] := rfl

@[simp] theorem heard_cons {exchange : Exchange Answer} {said : CourseDialogue} :
    heard read (exchange :: said) = heard read said ++ (read exchange).toList := by
  cases found : read exchange <;> simp [heard, found]

end Heard

def readResolution : Exchange Answer → Option (Option Resolution)
  | ⟨.resolve _, body⟩ => some (Option.bind body parseResolution)
  | _ => none

def readBundle : Exchange Answer → Option (Option Bundle)
  | ⟨.bundle .., body⟩ => some (Option.bind body parseBundle)
  | _ => none

def readRows : Exchange Answer → Option (Option (List SearchRow))
  | ⟨.search _, body⟩ => some (Option.bind body parseRows)
  | _ => none

def readClock : Exchange Answer → Option Int
  | ⟨.now, time⟩ => some time
  | _ => none

section Readers

variable {said : CourseDialogue}

abbrev resolutions (said : CourseDialogue) : List (Option Resolution) := heard readResolution said
abbrev bundles (said : CourseDialogue) : List (Option Bundle) := heard readBundle said
abbrev searches (said : CourseDialogue) : List (Option (List SearchRow)) := heard readRows said
abbrev times (said : CourseDialogue) : List Int := heard readClock said

/-- The time between the first two readings of the clock. -/
def elapsed (said : CourseDialogue) : Int :=
  match times said with
  | started :: ended :: _ => ended - started
  | _ => 0

def answeredRows (said : CourseDialogue) : List SearchRow := ((searches said).filterMap id).flatten

/-- No answer yet that the gate goes by. -/
structure Quiet (said : CourseDialogue) : Prop where
  resolutions : resolutions said = []
  bundles : bundles said = []
  searches : searches said = []
  times : times said = []

theorem elapsed_cons {exchange : Exchange Answer} (clocked : 2 ≤ (times said).length) :
    elapsed (exchange :: said) = elapsed said := by
  rw [elapsed, elapsed, times, heard_cons]
  cases read : heard readClock said with
  | nil => simp [read] at clocked
  | cons started rest =>
    cases rest with
    | nil => simp [read] at clocked
    | cons ended others => simp [read]

/-- An exchange that the readers pass over. -/
structure Beside (exchange : Exchange Answer) : Prop where
  resolution : readResolution exchange = none
  bundle : readBundle exchange = none
  rows : readRows exchange = none

theorem Quiet.later {exchange : Exchange Answer} (quiet : Quiet said) (beside : Beside exchange)
    (unclocked : readClock exchange = none) : Quiet (exchange :: said) where
  resolutions := by simp [beside.resolution, quiet.resolutions]
  bundles := by simp [beside.bundle, quiet.bundles]
  searches := by simp [beside.rows, quiet.searches]
  times := by simp [unclocked, quiet.times]

end Readers

section Outcome

variable {platform : Platform} {input : CourseMemoryRetrievalInput} {said : CourseDialogue}
variable {α : Type}

/-- Whatever is answered, the process ends so. -/
abbrev Ends (said : CourseDialogue) (leaves : CourseDialogue → α → Prop) (process : CourseProcess α) : Prop :=
  process.Keeps (fun _ _ => True) (fun _ _ => True) leaves said

/-- The search judges all the rows that it was given, or it has failed and returns none. -/
inductive Sought (platform : Platform) (input : CourseMemoryRetrievalInput)
    (answers : List (Option (List SearchRow))) (durationMs : Int)
    (retrieval : CourseMemoryRetrieval) : Prop where
  | judged {lists : List (List SearchRow)} (read : answers = lists.map some)
      (judged : retrieval =
        judgeRows platform input (lists.flatten.foldl addUnseen []) durationMs)
  | failed (broken : none ∈ answers ∨ answers = []) (events : retrieval.eventIds = [])
      (refs : retrieval.evidenceRefs = []) (snippets : retrieval.snippets = [])

/-- The search leaves the other answers alone. -/
structure Aside (said after : CourseDialogue) : Prop where
  resolutions : resolutions after = resolutions said
  bundles : bundles after = bundles said

/-- What the rows that a search goes on with have to do with its answers. -/
def MergedFrom (merged : List SearchRow) (answers : List (Option (List SearchRow))) :
    Except Nat (List SearchRow) → Prop
  | .ok kept => ∃ lists : List (List SearchRow), answers = lists.map some ∧
      kept = lists.flatten.foldl addUnseen merged
  | .error _ => none ∈ answers

theorem searchRows_ends {queries : List String} {merged : List SearchRow} :
    Ends said (fun after rows => Aside said after ∧ times after = times said ∧
        ∃ answers, searches after = searches said ++ answers ∧ MergedFrom merged answers rows)
      (searchRows input queries merged) := by
  induction queries generalizing said merged with
  | nil => exact ⟨⟨rfl, rfl⟩, rfl, [], by simp, [], rfl, rfl⟩
  | cons query queries ih =>
    refine .answered trivial fun answer _ => ?_
    cases answer with
    | none => exact ⟨⟨by simp [readResolution], by simp [readBundle]⟩, by simp [readClock], [none],
        by simp [readRows], List.mem_singleton.mpr rfl⟩
    | some value =>
      cases parsed : parseRows value with
      | none =>
        simp only [parsed]
        exact ⟨⟨by simp [readResolution], by simp [readBundle]⟩, by simp [readClock], [none],
          by simp [readRows, parsed], List.mem_singleton.mpr rfl⟩
      | some rows =>
        simp only [parsed]
        split
        · exact ⟨⟨by simp [readResolution], by simp [readBundle]⟩, by simp [readClock],
            [some rows], by simp [readRows, parsed], [rows], rfl, by simp⟩
        · refine ih.mono ?_
          rintro after ended ⟨aside, clock, answers, found, judged⟩
          refine ⟨⟨?_, ?_⟩, ?_, some rows :: answers, ?_, ?_⟩
          · simpa [readResolution] using aside.resolutions
          · simpa [readBundle] using aside.bundles
          · simpa [readClock] using clock
          · simpa [readRows, parsed] using found
          · cases ended with
            | error candidateCount => exact List.mem_cons_of_mem _ judged
            | ok kept =>
              obtain ⟨lists, read, rfl⟩ := judged
              exact ⟨rows :: lists, by simp [read], by simp⟩

theorem retrieveCourseMemory_ends (silent : searches said = []) (unclocked : times said = []) :
    Ends said (fun after retrieval => Aside said after ∧ 2 ≤ (times after).length ∧
        Sought platform input (searches after) (elapsed after) retrieval) (retrieveCourseMemory platform input) := by
  refine .answered trivial fun started _ => ?_
  cases input.task with
  | none =>
    refine .answered trivial fun ended _ => ?_
    refine ⟨⟨by simp [readResolution], by simp [readBundle]⟩, by simp [readClock], ?_⟩
    exact .failed (.inr (by simp [readRows, silent])) rfl rfl rfl
  | some task =>
    refine .bind searchRows_ends ?_
    rintro after rows ⟨aside, clock, answers, found, judged⟩
    refine .answered trivial fun ended _ => ?_
    have read : times (⟨.now, ended⟩ :: after) = [started, ended] := by
      simp [readClock, clock, unclocked]
    have lasted : elapsed (⟨.now, ended⟩ :: after) = ended - started := by
      rw [elapsed, read]
    have heardRows : searches (⟨.now, ended⟩ :: after) = answers := by
      simpa [readRows, silent] using found
    cases rows with
    | ok kept =>
      obtain ⟨lists, all, rfl⟩ := judged
      refine ⟨⟨?_, ?_⟩, by simp [read], ?_⟩
      · simpa [readResolution] using aside.resolutions
      · simpa [readBundle] using aside.bundles
      · exact .judged (heardRows.trans all) (by rw [lasted])
    | error candidateCount =>
      refine ⟨⟨?_, ?_⟩, by simp [read], ?_⟩
      · simpa [readResolution] using aside.resolutions
      · simpa [readBundle] using aside.bundles
      · exact .failed (.inl (heardRows ▸ judged)) rfl rfl rfl

variable {data payload : MessagePayload} {options : CourseContextGateOptions}
variable {context : ResolvedCourseExecutionContext} {retrieval : CourseMemoryRetrieval}

/-- A wake runs the course skill, whatever the settings. -/
def specializedTurn (data : MessagePayload) (options : CourseContextGateOptions) : Bool :=
  (validScheduledCourseContext data).isSome || options.specialized

/-- What the search has found, or what stands in for it where there is none. -/
def Found (platform : Platform) (data : MessagePayload) (options : CourseContextGateOptions)
    (courseEntityId : String) (fallback : CourseMemoryRetrieval) (said : CourseDialogue)
    (retrieval : CourseMemoryRetrieval) : Prop :=
  match searchedOrganization data options with
  | some organizationId => 2 ≤ (times said).length ∧
      Sought platform
        (retrievalInput data options (specializedTurn data options) courseEntityId organizationId)
        (searches said) (elapsed said) retrieval
  | none => retrieval = fallback ∧ searches said = []

/-- How a context has come to be attached. -/
inductive Attached (platform : Platform) (data : MessagePayload)
    (options : CourseContextGateOptions) (said : CourseDialogue)
    (context : ResolvedCourseExecutionContext) : Prop where
  | reused {wake : ScheduledCourseContext} {existing : ResolvedCourseExecutionContext}
      {retrieval : CourseMemoryRetrieval} (valid : validScheduledCourseContext data = some wake)
      (carried : data.resolvedCourseContext = some existing)
      (user : existing.trust.ownerUserId = data.userId)
      (agent : existing.trust.agentId = data.agentId)
      (conversation : existing.trust.conversationId = data.conversationId)
      (key : existing.trust.courseKey = wake.course.courseKey)
      (entity : existing.trust.courseEntityId = wake.course.courseEntityId)
      (unasked : resolutions said = [] ∧ bundles said = [])
      (found : Found platform data options wake.course.courseEntityId existing.retrieval said
        retrieval)
      (attached : context = { existing with specialized := true, retrieval := retrieval })
  | fresh {matchedBy : String} {course : Course} {bundle : Bundle}
      {retrieval : CourseMemoryRetrieval}
      (resolved : resolutions said = [some (.resolved matchedBy course)])
      (bundled : bundles said = [some bundle])
      (key : bundle.course.courseKey = course.courseKey)
      (entity : bundle.course.courseEntityId = course.courseEntityId)
      (wakes : ∀ wake, validScheduledCourseContext data = some wake →
        data.resolvedCourseContext = none ∧ course.courseKey = wake.course.courseKey ∧
          course.courseEntityId = wake.course.courseEntityId)
      (found : Found platform data options course.courseEntityId noRetrieval said retrieval)
      (user : context.trust.ownerUserId = data.userId)
      (agent : context.trust.agentId = data.agentId)
      (conversation : context.trust.conversationId = data.conversationId)
      (trustKey : context.trust.courseKey = course.courseKey)
      (trustEntity : context.trust.courseEntityId = course.courseEntityId)
      (attached : context.course = course ∧ context.retrieval = retrieval)

/-- A result that lets the message go on with a context says how it was attached. -/
def Explained (platform : Platform) (data : MessagePayload) (options : CourseContextGateOptions)
    (said : CourseDialogue) (ended : CourseContextGateResult × MessagePayload) : Prop :=
  ∀ context persisted replay, ended.1 = .ready context persisted replay →
    ended.2.resolvedCourseContext = some context ∧ Attached platform data options said context

/-- The payload still is the message's. -/
structure SameTurn (data payload : MessagePayload) : Prop where
  userId : payload.userId = data.userId
  agentId : payload.agentId = data.agentId
  conversationId : payload.conversationId = data.conversationId
  organizationId : payload.organizationId = data.organizationId

def CourseContextGateResult.isReady : CourseContextGateResult → Bool
  | .ready .. => true
  | _ => false

theorem explained_of_refused {result : CourseContextGateResult} (refused : result.isReady = false) :
    Explained platform data options said (result, payload) := by
  intro context persisted replay ready
  obtain rfl : result = .ready context persisted replay := ready
  contradiction

theorem gateRetrieval_ends {courseEntityId : String} {fallback : CourseMemoryRetrieval}
    (same : SameTurn data payload) (silent : searches said = []) (unclocked : times said = []) :
    Ends said (fun after retrieval => Aside said after ∧
        Found platform data options courseEntityId fallback after retrieval)
      (gateRetrieval platform payload options (specializedTurn data options) courseEntityId fallback) := by
  have asked : searchedOrganization payload options = searchedOrganization data options := by
    rw [searchedOrganization, searchedOrganization, same.organizationId]
  unfold gateRetrieval Found
  rw [asked]
  cases searched : searchedOrganization data options with
  | none => exact ⟨⟨rfl, rfl⟩, rfl, silent⟩
  | some organizationId =>
    refine (retrieveCourseMemory_ends silent unclocked).mono ?_
    rintro after retrieval ⟨aside, clocked, sought⟩
    refine ⟨aside, clocked, ?_⟩
    rcases sought with ⟨read, judged⟩ | ⟨broken, events, refs, snippets⟩
    · refine .judged read (judged.trans ?_)
      simp only [judgeRows, retrievalInput, CourseMemoryRetrievalInput.hits, same.userId, same.agentId]
      rfl
    · exact .failed broken events refs snippets

theorem Found.later {exchange : Exchange Answer} {courseEntityId : String}
    {fallback : CourseMemoryRetrieval} (beside : Beside exchange)
    (found : Found platform data options courseEntityId fallback said retrieval) :
    Found platform data options courseEntityId fallback (exchange :: said) retrieval := by
  unfold Found at found ⊢
  cases searched : searchedOrganization data options with
  | none =>
    rw [searched] at found
    exact ⟨found.1, by simp [beside.rows, found.2]⟩
  | some organizationId =>
    rw [searched] at found
    have clocked := found.1
    have still : 2 ≤ (times (exchange :: said)).length := by
      rw [times, heard_cons, List.length_append]
      exact clocked.trans (Nat.le_add_right _ _)
    refine ⟨still, ?_⟩
    rw [elapsed_cons clocked, searches, heard_cons, beside.rows]
    simpa using found.2

theorem Attached.later {exchange : Exchange Answer} (beside : Beside exchange)
    (attached : Attached platform data options said context) :
    Attached platform data options (exchange :: said) context := by
  cases attached with
  | reused valid carried user agent conversation key entity unasked found attached =>
    refine .reused valid carried user agent conversation key entity ?_ (found.later beside) attached
    simpa [beside.resolution, beside.bundle] using unasked
  | fresh resolved bundled key entity wakes found user agent conversation trustKey trustEntity
      attached =>
      rename_i matchedBy course bundle retrieval
      have stillResolved : resolutions (exchange :: said) = [some (.resolved matchedBy course)] := by
        simpa [beside.resolution] using resolved
      have stillBundled : bundles (exchange :: said) = [some bundle] := by
        simpa [beside.bundle] using bundled
      exact .fresh stillResolved stillBundled key entity wakes (found.later beside) user agent
        conversation trustKey trustEntity attached

theorem recordTrace_ends {trace : ScheduledTrace} {result : CourseContextGateResult}
    (explained : Explained platform data options said (result, payload)) :
    Ends said (Explained platform data options) (recordTrace options trace payload result) := by
  unfold recordTrace
  split
  · refine .answered trivial fun answer _ => ?_
    cases answer with
    | false => exact explained_of_refused rfl
    | true =>
      intro context persisted replay ready
      obtain ⟨carried, attached⟩ := explained context persisted replay ready
      exact ⟨carried, attached.later ⟨rfl, rfl, rfl⟩⟩
  · exact explained

section Stages

variable {session : Option ThreadSession} {boundCourseEntityId : Option String}
variable {replay : Option Replay} {matchedBy : String} {course : Course}

/-- What the resolved course has to do with the wake. -/
def FollowsWake (data : MessagePayload) (course : Course) : Prop :=
  ∀ wake, validScheduledCourseContext data = some wake →
    data.resolvedCourseContext = none ∧ course.courseKey = wake.course.courseKey ∧
      course.courseEntityId = wake.course.courseEntityId

theorem attachResolved_ends {bundle : Bundle} (same : SameTurn data payload)
    (resolved : resolutions said = [some (.resolved matchedBy course)])
    (bundled : bundles said = [some bundle]) (key : bundle.course.courseKey = course.courseKey)
    (entity : bundle.course.courseEntityId = course.courseEntityId) (wakes : FollowsWake data course)
    (found : Found platform data options course.courseEntityId noRetrieval said retrieval) :
    Ends said (Explained platform data options)
      (attachResolved platform payload options (validScheduledCourseContext data)
        boundCourseEntityId matchedBy course bundle replay retrieval) := by
  unfold attachResolved
  extract_lets context attached
  have fresh : Attached platform data options said context :=
    .fresh resolved bundled key entity wakes found same.userId same.agentId same.conversationId rfl
      rfl ⟨rfl, rfl⟩
  have explained : ∀ persisted replay (other : MessagePayload), other.resolvedCourseContext = some context →
        Explained platform data options said (.ready context persisted replay, other) := by
    intro persisted replay other carries found persistedFound replayFound ready
    cases ready
    exact ⟨carries, fresh⟩
  split
  · exact recordTrace_ends (explained _ _ _ rfl)
  · split
    · exact explained _ _ _ rfl
    · refine .answered trivial fun now _ => .answered trivial fun persisted _ => ?_
      intro found persistedFound replayFound ready
      cases ready
      exact ⟨rfl, (fresh.later ⟨rfl, rfl, rfl⟩).later ⟨rfl, rfl, rfl⟩⟩

theorem loadBundle_ends (same : SameTurn data payload)
    (resolved : resolutions said = [some (.resolved matchedBy course)])
    (unbundled : bundles said = []) (silent : searches said = []) (unclocked : times said = [])
    (wakes : FollowsWake data course) :
    Ends said (Explained platform data options)
      (loadBundle platform payload options (validScheduledCourseContext data) boundCourseEntityId
        matchedBy course replay) := by
  refine .answered trivial fun body _ => ?_
  cases parsed : Option.bind body parseBundle with
  | none =>
    simp only
    split <;> exact explained_of_refused rfl
  | some bundle =>
    simp only
    split
    · exact explained_of_refused rfl
    · rename_i agrees
      simp only [ne_eq, not_or, not_not] at agrees
      refine .bind (gateRetrieval_ends same ?_ ?_) ?_
      · simpa [readRows] using silent
      · simpa [readClock] using unclocked
      · rintro after retrieval ⟨aside, found⟩
        refine attachResolved_ends same ?_ ?_ agrees.1 agrees.2 wakes found
        · rw [aside.resolutions]
          simpa [readResolution] using resolved
        · rw [aside.bundles]
          simp [readBundle, unbundled, parsed]

theorem useResolution_ends {resolution : Resolution} (same : SameTurn data payload)
    (answered : resolutions said = [some resolution]) (unbundled : bundles said = [])
    (silent : searches said = []) (unclocked : times said = [])
    (unattached : ∀ wake, validScheduledCourseContext data = some wake → data.resolvedCourseContext = none) :
    Ends said (Explained platform data options)
      (useResolution platform payload options (validScheduledCourseContext data)
        boundCourseEntityId replay resolution) := by
  unfold useResolution
  split
  · unfold askForCourse
    split
    · exact explained_of_refused rfl
    · refine .answered trivial fun _ _ => .answered trivial fun created _ => ?_
      cases created <;> exact explained_of_refused rfl
  · exact explained_of_refused rfl
  · exact explained_of_refused rfl
  · exact explained_of_refused rfl
  · rename_i matchedBy course wake valid
    split
    · exact explained_of_refused rfl
    · rename_i agrees
      simp only [ne_eq, not_or, not_not] at agrees
      refine loadBundle_ends same answered unbundled silent unclocked ?_
      intro other found
      cases valid.symm.trans found
      exact ⟨unattached wake valid, agrees⟩
  · rename_i matchedBy course unscheduled
    refine loadBundle_ends same answered unbundled silent unclocked ?_
    intro wake valid
    cases unscheduled.symm.trans valid

theorem resolveCourse_ends {choice : Option CourseCandidate} (same : SameTurn data payload)
    (quiet : Quiet said) (unattached : ∀ wake, validScheduledCourseContext data = some wake →
      data.resolvedCourseContext = none) :
    Ends said (Explained platform data options)
      (resolveCourse platform payload options (validScheduledCourseContext data) session
        boundCourseEntityId choice replay) := by
  refine .answered trivial fun body _ => ?_
  cases parsed : Option.bind body parseResolution with
  | none =>
    by_cases strict : options.propagateInfrastructureErrors = true
    · rw [if_pos strict]
      exact explained_of_refused rfl
    · rw [if_neg strict]
      exact explained_of_refused rfl
  | some resolution =>
    refine useResolution_ends same ?_ ?_ ?_ ?_ unattached
    · simp [readResolution, quiet.resolutions, parsed]
    · simp [readBundle, quiet.bundles]
    · simp [readRows, quiet.searches]
    · simp [readClock, quiet.times]

/-- A message that brings no wake along. -/
def Unscheduled (data : MessagePayload) : Prop := validScheduledCourseContext data = none

theorem resolveCourse_unscheduled {choice : Option CourseCandidate} (same : SameTurn data payload)
    (quiet : Quiet said) (unscheduled : Unscheduled data) :
    Ends said (Explained platform data options)
      (resolveCourse platform payload options none session none choice replay) := by
  have ends : Ends said (Explained platform data options)
      (resolveCourse platform payload options (validScheduledCourseContext data) session none choice
        replay) := by
    refine resolveCourse_ends same quiet fun wake valid => ?_
    cases unscheduled.symm.trans valid
  rwa [unscheduled] at ends

theorem SameTurn.withParked {pending : PendingCourseSelection} (same : SameTurn data payload) :
    SameTurn data (payload.withParked pending) :=
  ⟨same.userId, same.agentId, same.conversationId, same.organizationId⟩

variable {reading : TurnReading}

theorem selectCourse_ends {pending : Option PendingCourseSelection}
    (same : SameTurn data payload) (quiet : Quiet said) (unscheduled : Unscheduled data) :
    Ends said (Explained platform data options) (selectCourse platform reading payload options session pending) := by
  unfold selectCourse
  split
  · split
    · exact explained_of_refused rfl
    · split
      · exact explained_of_refused rfl
      · exact resolveCourse_unscheduled same quiet unscheduled
  · split
    · exact explained_of_refused rfl
    · split
      · exact explained_of_refused rfl
      · unfold claimSelection
        simp only
        split
        · refine .answered trivial fun claimed _ => ?_
          split
          · exact resolveCourse_unscheduled same.withParked (quiet.later ⟨rfl, rfl, rfl⟩ rfl) unscheduled
          · exact explained_of_refused rfl
        · exact resolveCourse_unscheduled same.withParked quiet unscheduled
        · exact resolveCourse_unscheduled same.withParked quiet unscheduled

theorem settlePending_ends {sessionKey : String} {now : Int}
    (same : SameTurn data payload) (quiet : Quiet said) (unscheduled : Unscheduled data) :
    Ends said (Explained platform data options)
      (settlePending platform reading payload options sessionKey session now) := by
  have cleared : ∀ pending messageId reasonCode, Ends said (Explained platform data options)
      (clearSelection platform reading payload options sessionKey session pending messageId
        reasonCode) := by
    intro pending messageId reasonCode
    refine .answered trivial fun cleared _ => ?_
    split
    · exact selectCourse_ends same (quiet.later ⟨rfl, rfl, rfl⟩ rfl) unscheduled
    · exact explained_of_refused rfl
  unfold settlePending
  split
  · exact selectCourse_ends same quiet unscheduled
  · split
    · exact explained_of_refused rfl
    · split
      · exact cleared _ _ _
      · split
        · split
          · exact explained_of_refused rfl
          · exact cleared _ _ _
        · split
          · exact cleared _ _ _
          · exact selectCourse_ends same quiet unscheduled

theorem attachScheduled_ends {wake : ScheduledCourseContext}
    (valid : validScheduledCourseContext data = some wake) (quiet : Quiet said) :
    Ends said (Explained platform data options) (attachScheduled platform data options wake boundCourseEntityId) := by
  have same : SameTurn data data := ⟨rfl, rfl, rfl, rfl⟩
  unfold attachScheduled
  split
  · rename_i existing carried
    unfold reuseScheduled
    simp only
    split
    · exact explained_of_refused rfl
    · rename_i trusted
      simp only [ne_eq, not_or, not_not] at trusted
      obtain ⟨user, agent, conversation, key, entity⟩ := trusted
      have ends : Ends said (fun after retrieval => Aside said after ∧
          Found platform data options wake.course.courseEntityId existing.retrieval after
            retrieval)
          (gateRetrieval platform data options (specializedTurn data options)
            wake.course.courseEntityId existing.retrieval) :=
        gateRetrieval_ends same quiet.searches quiet.times
      rw [specializedTurn, valid] at ends
      refine .bind ends ?_
      rintro after retrieval ⟨aside, found⟩
      have unasked : resolutions after = [] ∧ bundles after = [] :=
        ⟨aside.resolutions.trans quiet.resolutions, aside.bundles.trans quiet.bundles⟩
      split
      · apply recordTrace_ends
        intro context persisted replay ready
        cases ready
        exact ⟨rfl, .reused valid carried user agent conversation key entity unasked found rfl⟩
      · exact explained_of_refused rfl
  · rename_i unattached
    split
    · exact explained_of_refused rfl
    · have ends : Ends said (Explained platform data options)
          (resolveCourse platform data options (validScheduledCourseContext data) none
            boundCourseEntityId none none) :=
        resolveCourse_ends same quiet fun _ _ => unattached
      rwa [valid] at ends

theorem attachCourseContextForReviewedScope_ends :
    Ends [] (Explained platform data options)
      (attachCourseContextForReviewedScope platform reading data options) := by
  have quiet : Quiet [] := ⟨rfl, rfl, rfl, rfl⟩
  have same : SameTurn data data := ⟨rfl, rfl, rfl, rfl⟩
  unfold attachCourseContextForReviewedScope
  split
  · exact explained_of_refused rfl
  · rename_i valid
    split
    · exact attachScheduled_ends valid quiet
    · refine .answered trivial fun loaded _ => ?_
      cases loaded with
      | none => exact explained_of_refused rfl
      | some loaded => exact attachScheduled_ends valid (quiet.later ⟨rfl, rfl, rfl⟩ rfl)
  · rename_i unscheduled
    split
    · exact explained_of_refused rfl
    · split
      · exact selectCourse_ends same quiet unscheduled
      · refine .answered trivial fun loaded _ => ?_
        cases loaded with
        | none => exact explained_of_refused rfl
        | some loaded =>
          exact settlePending_ends same (quiet.later ⟨rfl, rfl, rfl⟩ rfl) unscheduled

theorem wake_valid_ends :
    Ends [] (fun _ ended => ∀ context persisted replay, ended.1 = .ready context persisted replay →
        ∀ wake ∈ data.scheduledCourseContext, validScheduledCourseContext data = some wake)
      (attachCourseContextForReviewedScope platform reading data options) := by
  by_cases valid : ∀ wake ∈ data.scheduledCourseContext, validScheduledCourseContext data = some wake
  · exact attachCourseContextForReviewedScope_ends.mono fun _ _ _ _ _ _ _ => valid
  · have refused : validScheduledCourseContext data = none := by
      by_contra found
      obtain ⟨wake, holds⟩ := Option.ne_none_iff_exists'.mp found
      refine valid fun other present => ?_
      have stored := (Option.filter_eq_some_iff.mp holds).1
      cases present.symm.trans stored
      exact holds
    unfold attachCourseContextForReviewedScope
    split
    · intro context persisted replay ready
      cases ready
    · rename_i found
      cases refused.symm.trans found
    · rename_i unscheduled _
      refine absurd (fun wake present => ?_) valid
      cases unscheduled.symm.trans present

end Stages

/-- The row is of the message's organization, owner and agent, and of exactly this course. -/
def ownRow (data : MessagePayload) (courseEntityId : String) (row : SearchRow) : Bool :=
  row.belongs (data.organizationId.getD "") data.userId data.agentId courseEntityId

/-- The message carries the context of one course of its own, and no evidence from elsewhere. -/
structure Isolated (platform : Platform) (data : MessagePayload) (said : CourseDialogue)
    (context : ResolvedCourseExecutionContext) (left : MessagePayload) : Prop where
  attached : left.resolvedCourseContext = some context
  trust : context.trust.ownerUserId = data.userId ∧ context.trust.agentId = data.agentId ∧
    context.trust.conversationId = data.conversationId
  course : context.course.courseKey = context.trust.courseKey ∧
    context.course.courseEntityId = context.trust.courseEntityId
  resolved : ∀ resolution ∈ resolutions said, ∃ matchedBy course,
    resolution = some (.resolved matchedBy course) ∧ course.courseKey = context.trust.courseKey ∧
      course.courseEntityId = context.trust.courseEntityId
  bundled : ∀ answer ∈ bundles said, ∃ bundle, answer = some bundle ∧
    bundle.course.courseKey = context.trust.courseKey ∧
      bundle.course.courseEntityId = context.trust.courseEntityId
  asked : data.resolvedCourseContext = none ∨ data.scheduledCourseContext = none →
    resolutions said ≠ [] ∧ bundles said ≠ []
  wake : ∀ wake ∈ data.scheduledCourseContext,
    wake.course.courseKey = context.trust.courseKey ∧
      wake.course.courseEntityId = context.trust.courseEntityId
  drawn : Drawn platform context.trust.courseEntityId
    ((answeredRows said).filter (ownRow data context.trust.courseEntityId)) context.retrieval
  guarded : (∃ row ∈ answeredRows said, ownRow data context.trust.courseEntityId row = false) →
    context.retrieval.snippets = []

/-- The course that the wake or the resolver names. -/
def turnCourse (data : MessagePayload) (said : CourseDialogue) : Option String :=
  match validScheduledCourseContext data, resolutions said with
  | some wake, _ => some wake.course.courseEntityId
  | none, [some (.resolved _ course)] => some course.courseEntityId
  | none, _ => none

/-- A row that belongs elsewhere has the identifier of an earlier one, so that it is never looked
at, and the rows that are looked at leave a snippet. -/
def Conceals (platform : Platform) (input : CourseMemoryRetrievalInput)
    (answers : List (Option (List SearchRow))) (durationMs : Int) : Prop :=
  ∃ lists : List (List SearchRow), answers = lists.map some ∧
    (∃ row ∈ lists.flatten, input.owns row = false) ∧
    (judgeRows platform input (lists.flatten.foldl addUnseen []) durationMs).snippets ≠ []

/-- The context that a message with a wake has been given before. -/
def reusedContext (data : MessagePayload) : Option ResolvedCourseExecutionContext :=
  if (validScheduledCourseContext data).isSome then data.resolvedCourseContext else none

/-- When the gate isolates the courses. -/
structure IsolationHolds (platform : Platform) (data : MessagePayload)
    (options : CourseContextGateOptions) (said : CourseDialogue) : Prop where
  course : ∀ existing ∈ reusedContext data,
    existing.course.courseKey = existing.trust.courseKey ∧
      existing.course.courseEntityId = existing.trust.courseEntityId
  unsearched : ∀ existing ∈ reusedContext data, searchedOrganization data options = none →
    existing.retrieval.snippets = [] ∧ existing.retrieval.eventIds = [] ∧
      existing.retrieval.evidenceRefs = []
  open_ : ∀ organizationId ∈ searchedOrganization data options,
    ∀ courseEntityId ∈ turnCourse data said,
      ¬ Conceals platform
        (retrievalInput data options (specializedTurn data options) courseEntityId organizationId)
        (searches said) (elapsed said)

section Found

variable {courseEntityId : String} {fallback : CourseMemoryRetrieval}

theorem answeredRows_of_lists {lists : List (List SearchRow)}
    (read : searches said = lists.map some) : answeredRows said = lists.flatten := by
  simp [answeredRows, read]

theorem searchedOrganization_some {organizationId : String}
    (searched : searchedOrganization data options = some organizationId) :
    data.organizationId = some organizationId := by
  unfold searchedOrganization at searched
  split at searched
  · exact (Option.filter_eq_some_iff.mp searched).1
  · cases searched

theorem ownRow_of_searched {organizationId : String}
    (searched : searchedOrganization data options = some organizationId) :
    ownRow data courseEntityId = (retrievalInput data options (specializedTurn data options)
      courseEntityId organizationId).owns := by
  funext row
  rw [ownRow, searchedOrganization_some searched]
  rfl

theorem Found.drawn (found : Found platform data options courseEntityId fallback said retrieval)
    (empty : searchedOrganization data options = none → fallback.snippets = [] ∧
      fallback.eventIds = [] ∧ fallback.evidenceRefs = []) :
    Drawn platform courseEntityId ((answeredRows said).filter (ownRow data courseEntityId)) retrieval := by
  unfold Found at found
  cases searched : searchedOrganization data options with
  | none =>
    rw [searched] at found
    obtain ⟨snippets, events, refs⟩ := empty searched
    obtain ⟨rfl, -⟩ := found
    exact drawn_of_empty events refs snippets
  | some organizationId =>
    rw [searched] at found
    rcases found.2 with ⟨read, rfl⟩ | ⟨-, events, refs, snippets⟩
    · rw [answeredRows_of_lists read, ownRow_of_searched searched]
      refine Drawn.mono (judgeRows_drawn (retrievalInput data options (specializedTurn data options)
        courseEntityId organizationId) _ _) fun row judged => ?_
      obtain ⟨kept, owned⟩ := List.mem_filter.mp judged
      exact List.mem_filter.mpr ⟨(mem_foldl_addUnseen kept).resolve_left List.not_mem_nil, owned⟩
    · exact drawn_of_empty events refs snippets

theorem Found.guarded_iff (found : Found platform data options courseEntityId fallback said retrieval) :
    ((∃ row ∈ answeredRows said, ownRow data courseEntityId row = false) → retrieval.snippets = []) ↔
      ∀ organizationId ∈ searchedOrganization data options, ¬ Conceals platform
          (retrievalInput data options (specializedTurn data options) courseEntityId organizationId)
          (searches said) (elapsed said) := by
  unfold Found at found
  cases searched : searchedOrganization data options with
  | none =>
    rw [searched] at found
    refine iff_of_true ?_ (by simp)
    rintro ⟨row, answered, -⟩
    rw [answeredRows, found.2] at answered
    cases answered
  | some organizationId =>
    rw [searched] at found
    rw [ownRow_of_searched searched]
    simp only [Option.mem_some_iff, forall_eq']
    rcases found.2 with ⟨read, rfl⟩ | ⟨broken, -, -, snippets⟩
    · rename_i lists
      rw [answeredRows_of_lists read]
      constructor
      · rintro guarded ⟨others, same, foreign, shown⟩
        have all : others = lists :=
          List.map_injective_iff.mpr (Option.some_injective _) (same.symm.trans read)
        subst all
        exact shown (guarded foreign)
      · intro unconcealed foreign
        by_contra shown
        exact unconcealed ⟨lists, read, foreign, shown⟩
    · refine iff_of_true (fun _ => snippets) ?_
      rintro ⟨lists, read, ⟨row, answered, -⟩, -⟩
      rcases broken with absent | unanswered
      · rw [read] at absent
        simp at absent
      · rw [unanswered] at read
        cases lists with
        | nil => cases answered
        | cons first rest => cases read

end Found

end Outcome

def rowMetadata (course : String) : Json := .object
  [("owner_user_id", .string "ada"), ("agent_id", .string "opp"),
    ("course_entity_ids", .array [.string course])]

/-- The answer of a search: event 1, said to be of this course. -/
def rowJson (course : String) : Json := .array [.object
  [("id", .number (.finite 1)), ("payload_text", .string "notes"), ("title", .null),
    ("source_url", .null), ("organization_id", .string "school"),
    ("metadata", rowMetadata course)]]

def searchedRow (course : String) : SearchRow where
  id := 1
  payloadText := "notes"
  title := none
  sourceUrl := none
  organizationId := "school"
  metadata := rowMetadata course
  connectionId := none
  connectorKey := none
  originId := none
  originType := none
  semanticType := none

def searchedMessage : MessagePayload where
  userId := "ada"
  agentId := "opp"
  conversationId := "room"
  channelId := "room"
  messageId := "question"
  organizationId := some "school"
  messageText := some "sales talk"
  parkedFrom := none
  reviewedScope := false
  courseContextBinding := none
  scheduledCourseContext := none
  resolvedCourseContext := none

def searchedOptions : CourseContextGateOptions where
  sessionKey := none
  specialized := true
  courseSkillContextFields := []
  courseSkillRetrievalTerms := ["promise"]
  courseSkillRetrievalLimit := none
  memorySearch := true
  recordsTrace := false
  configured := true
  propagateInfrastructureErrors := false

def searchedGate : Gate :=
  attachCourseContextForReviewedScope plainPlatform plainReading searchedMessage searchedOptions

/-- What the resolver, the bundle, the clock and the two searches answer. -/
def searchedTurn (first second : Json) : List Circumstance :=
  [some (resolvedJson "drawing"), some (bundleJson "drawing"), none, some first, some second,
    none].map fun body => ⟨1, "", false, true, body⟩

def emptyRooms : CourseWorld where
  sessions _ := none
  created := []
  claims := []

/-- The message goes on after both searches have found event 1, of these courses. -/
def SearchedTwice (second : String) (ended : CourseDialogue × CourseContextGateResult × MessagePayload) : Bool :=
  match ended with
  | (said, .ready _ _ _, _) =>
    decide (searches said = [some [searchedRow "drawing"], some [searchedRow second]] ∧
      turnCourse searchedMessage said = some "drawing" ∧ elapsed said = 0)
  | _ => false

theorem searchedRow_shown : (judgeRows plainPlatform
    (retrievalInput searchedMessage searchedOptions true "drawing" "school")
    [searchedRow "drawing"] 0).snippets ≠ [] := by
  have found : (loadedResult plainPlatform (retrievalInput searchedMessage searchedOptions true
      "drawing" "school") [searchedRow "drawing"] 0).snippets ≠ [] := by decide +kernel
  have fits : writtenUnits plainPlatform.numberText (loadedResult plainPlatform (retrievalInput
      searchedMessage searchedOptions true "drawing" "school") [searchedRow "drawing"] 0).toJson ≤
      maxRetrievalJsonChars := by decide +kernel
  rw [judgeRows_of_owned _ _ _ (by decide +kernel) found, boundResult_snippets_of_fits fits]
  exact found

end Lobu.Courses
