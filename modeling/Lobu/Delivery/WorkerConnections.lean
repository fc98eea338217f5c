import Lobu.Foundation.Machine
import Lobu.Foundation.ReverseIndex

namespace Lobu.Delivery

open Lobu.Foundation

/-! # Worker connections

The connection manager of a gateway process and the streams that the gateway opens for workers.
A writer is a number; `streams` has the request behind each writer of the gateway, with the
variables that its close callback shares with the handler.  What is written to the streams is left
out.
-/

structure WorkerConnection where
  deploymentName : String
  userId : String
  conversationId : String
  agentId : String
  writer : Nat
  lastActivity : Int
  lastPing : Int
  httpUrl : Option String

structure WorkerStream where
  deploymentName : String
  userId : String
  conversationId : String
  agentId : Option String
  httpPort : Option Int
  connectionAdded : Bool
  cleanupRan : Bool
  aborted : Bool

structure ConnectionState where
  connections : OrderedMap String WorkerConnection
  agentDeployments : ReverseIndex String String
  streams : Nat → Option WorkerStream

namespace ConnectionState

def start : ConnectionState where
  connections := .empty
  agentDeployments := .empty
  streams := fun _ => none

def getConnection (state : ConnectionState) (deploymentName : String) : Option WorkerConnection :=
  state.connections.get? deploymentName

def isConnected (state : ConnectionState) (deploymentName : String) : Bool :=
  state.connections.has deploymentName

def getDeploymentsForAgent (state : ConnectionState) (agentId : String) : List String :=
  state.agentDeployments.members agentId

/-- The URL of the first connected deployment of the agent that has one. -/
def getHttpUrl (state : ConnectionState) (agentId : String) : Option String :=
  (state.getDeploymentsForAgent agentId).findSome? fun deploymentName =>
    (state.getConnection deploymentName).bind WorkerConnection.httpUrl

def loopbackUrl (httpPort : Option Int) : Option String :=
  match httpPort with
  | none => none
  | some port => if port = 0 then none else some ("http://127.0.0.1:" ++ toString port)

def addConnection (state : ConnectionState) (deploymentName userId conversationId agentId : String)
    (writer : Nat) (httpPort : Option Int) (now : Int) : ConnectionState :=
  let agentDeployments :=
    match state.connections.get? deploymentName with
    | none => state.agentDeployments
    | some prior =>
      if prior.agentId ≠ agentId then state.agentDeployments.detach prior.agentId deploymentName
      else state.agentDeployments
  let connection : WorkerConnection :=
    { deploymentName, userId, conversationId, agentId, writer, lastActivity := now, lastPing := now,
      httpUrl := loopbackUrl httpPort }
  { state with
    connections := state.connections.set deploymentName connection
    agentDeployments := agentDeployments.attach agentId deploymentName }

/-- `closing` is what `writer.end()` sets off. -/
def removeConnection (closing : ConnectionState → Nat → ConnectionState) (state : ConnectionState)
    (deploymentName : String) (expectedWriter : Option Nat) : ConnectionState :=
  match state.connections.get? deploymentName with
  | none => state
  | some connection =>
    -- a newer writer is active
    if expectedWriter.any fun expected => decide (connection.writer ≠ expected) then state
    else
      let unindexed :=
        { state with
          agentDeployments := state.agentDeployments.detach connection.agentId deploymentName }
      let ended := closing unindexed connection.writer
      { ended with connections := ended.connections.delete deploymentName }

/-- The close callback of a stream of the gateway. -/
def runCleanup (closing : ConnectionState → Nat → ConnectionState) (state : ConnectionState)
    (writer : Nat) : ConnectionState :=
  match state.streams writer with
  | none => state
  | some stream =>
    if stream.cleanupRan then state
    else
      let latched :=
        { state with
          streams := Function.update state.streams writer
            (some { stream with cleanupRan := true, aborted := true }) }
      if !stream.connectionAdded then latched
      else if (latched.getConnection stream.deploymentName).any
          fun current => decide (current.writer ≠ writer) then
        -- replaced by a newer stream
        latched
      else latched.removeConnection closing stream.deploymentName none

/-- What `writer.end()` sets off: the close callback, for a writer that calls it there.  A stream
that is ended by its own callback is latched by then, and its callback does nothing. -/
def endWriter (callsBack : Nat → Bool) (state : ConnectionState) (writer : Nat) : ConnectionState :=
  if callsBack writer then state.runCleanup (fun latched _ => latched) writer else state

/-- `timeoutMinutes` is what `parseInt` makes of the variable, none for `NaN`, which no age exceeds. -/
def cleanupStaleConnections (closing : ConnectionState → Nat → ConnectionState)
    (state : ConnectionState) (timeoutMinutes : Option Int) (now : Int) : ConnectionState :=
  match timeoutMinutes with
  | none => state
  | some minutes =>
    (state.connections.entries.map Prod.fst).foldl (fun current deploymentName =>
      match current.getConnection deploymentName with
      | none => current
      | some connection =>
        if now - connection.lastActivity > minutes * 60 * 1000 then
          current.removeConnection closing deploymentName none
        else current) state

def touchConnection (state : ConnectionState) (deploymentName : String) (now : Int) : ConnectionState :=
  match state.connections.get? deploymentName with
  | none => state
  | some connection =>
    { state with
      connections := state.connections.set deploymentName { connection with lastActivity := now } }

def sendHeartbeats (state : ConnectionState) (now : Int) : ConnectionState :=
  (state.connections.entries.map Prod.fst).foldl (fun current deploymentName =>
    match current.connections.get? deploymentName with
    | none => current
    | some connection =>
      { current with
        connections := current.connections.set deploymentName { connection with lastPing := now } })
    state

def shutdown (closing : ConnectionState → Nat → ConnectionState) (state : ConnectionState) : ConnectionState :=
  (state.connections.entries.map Prod.fst).foldl (fun current deploymentName =>
    current.removeConnection closing deploymentName none) state

/-- The handler of a stream after `pauseWorker`. -/
def setUpStream (closing : ConnectionState → Nat → ConnectionState) (state : ConnectionState)
    (writer : Nat) (stream : WorkerStream) (requestAborted : Bool) (now : Int) : ConnectionState :=
  if stream.aborted || requestAborted then state.runCleanup closing writer
  else
    let evicted :=
      if state.isConnected stream.deploymentName then
        state.removeConnection closing stream.deploymentName none
      else state
    let added :=
      evicted.addConnection stream.deploymentName stream.userId stream.conversationId
        (stream.agentId.getD "") writer stream.httpPort now
    { added with
      streams := Function.update added.streams writer (some { stream with connectionAdded := true }) }

end ConnectionState

/-- `opened` is the beginning of a stream's handler up to its call of `pauseWorker`, `setUp` what
follows that call, and `closed` the call of the close callback. -/
inductive ConnectionEvent where
  | addConnection (deploymentName userId conversationId agentId : String) (writer : Nat)
      (httpPort : Option Int) (now : Int)
  | removeConnection (deploymentName : String) (expectedWriter : Option Nat)
  | cleanupStaleConnections (timeoutMinutes : Option Int) (now : Int)
  | touchConnection (deploymentName : String) (now : Int)
  | sendHeartbeats (now : Int)
  | shutdown
  | opened (writer : Nat) (deploymentName userId conversationId : String) (agentId : Option String)
      (httpPort : Option Int)
  | setUp (writer : Nat) (requestAborted : Bool) (now : Int)
  | closed (writer : Nat)

/-- The writer whose stream an event closes. -/
def ConnectionEvent.closes : ConnectionEvent → Option Nat
  | .removeConnection _ expectedWriter => expectedWriter
  | .closed writer => some writer
  | _ => none

/-- `callsBack` tells which writers call their close callback within `end`. -/
def connectionManager (callsBack : Nat → Bool) : Machine ConnectionState ConnectionEvent where
  starts state := state = .start
  step state event :=
    let closing := ConnectionState.endWriter callsBack
    match event with
    | .addConnection deploymentName userId conversationId agentId writer httpPort now =>
      some (state.addConnection deploymentName userId conversationId agentId writer httpPort now)
    | .removeConnection deploymentName expectedWriter =>
      some (state.removeConnection closing deploymentName expectedWriter)
    | .cleanupStaleConnections timeoutMinutes now =>
      some (state.cleanupStaleConnections closing timeoutMinutes now)
    | .touchConnection deploymentName now => some (state.touchConnection deploymentName now)
    | .sendHeartbeats now => some (state.sendHeartbeats now)
    | .shutdown => some (state.shutdown closing)
    | .opened writer deploymentName userId conversationId agentId httpPort =>
      match state.streams writer with
      | some _ => none
      | none =>
        let stream : WorkerStream :=
          { deploymentName, userId, conversationId, agentId, httpPort, connectionAdded := false,
            cleanupRan := false, aborted := false }
        some { state with streams := Function.update state.streams writer (some stream) }
    | .setUp writer requestAborted now =>
      match state.streams writer with
      | none => none
      | some stream =>
        if stream.connectionAdded then none
        else some (state.setUpStream closing writer stream requestAborted now)
    | .closed writer => some (state.runCleanup closing writer)

namespace ConnectionState

variable {state : ConnectionState} {closing : ConnectionState → Nat → ConnectionState}
variable {hidden : List String} {deploymentName : String} {writer : Nat}
variable {connection : WorkerConnection}

/-- The close callback of the writer has run. -/
def Latched (state : ConnectionState) (writer : Nat) : Prop :=
  ∃ stream, state.streams writer = some stream ∧ stream.cleanupRan = true

def agentOf (state : ConnectionState) (deploymentName : String) : Option String :=
  (state.getConnection deploymentName).map WorkerConnection.agentId

/-- The index is right except that it misses the hidden deployments: those whose removal has begun. -/
def Indexed (hidden : List String) (state : ConnectionState) : Prop :=
  state.agentDeployments.Mirrors fun deploymentName =>
    if deploymentName ∈ hidden then none else state.agentOf deploymentName

/-- What an event does for every deployment whose removal it finds begun. -/
def Keeps (effect : ConnectionState → ConnectionState) : Prop :=
  ∀ hidden state, Indexed hidden state → Indexed hidden (effect state)

variable {after : ConnectionState}

theorem Indexed.same (indexed : Indexed hidden state) (index : after.agentDeployments = state.agentDeployments)
    (agents : ∀ deploymentName, after.agentOf deploymentName = state.agentOf deploymentName) :
    Indexed hidden after := by
  unfold Indexed
  rw [index, funext agents]
  exact indexed

theorem Indexed.begun (indexed : Indexed hidden state)
    (present : state.connections.get? deploymentName = some connection) :
    Indexed (deploymentName :: hidden)
      { state with
        agentDeployments := state.agentDeployments.detach connection.agentId deploymentName } := by
  have agents : ∀ other, (if other ∈ deploymentName :: hidden then none else state.agentOf other) =
      if other = deploymentName then none
        else if other ∈ hidden then none else state.agentOf other := by
    intro other
    by_cases same : other = deploymentName <;> simp [same]
  have owned : state.agentOf deploymentName = some connection.agentId := by
    simp [agentOf, getConnection, present]
  unfold Indexed
  change ReverseIndex.Mirrors _ fun other =>
    if other ∈ deploymentName :: hidden then none else state.agentOf other
  rw [funext agents]
  by_cases begun : deploymentName ∈ hidden
  · have unowned : (if deploymentName ∈ hidden then none else state.agentOf deploymentName) = none :=
      if_pos begun
    have hidesNothing : (fun other => if other = deploymentName then none
        else if other ∈ hidden then none else state.agentOf other) =
          fun other => if other ∈ hidden then none else state.agentOf other := by
      funext other
      by_cases same : other = deploymentName
      · simp [same, begun]
      · simp [same]
    rw [hidesNothing]
    exact indexed.detach_unowned unowned
  · have isOwned : (if deploymentName ∈ hidden then none else state.agentOf deploymentName) =
        some connection.agentId := by
      rw [if_neg begun, owned]
    exact ReverseIndex.Mirrors.detach indexed isOwned

theorem Indexed.finished (indexed : Indexed (deploymentName :: hidden) state) :
    Indexed hidden { state with connections := state.connections.delete deploymentName } := by
  unfold Indexed at indexed ⊢
  convert indexed using 2
  rename_i other
  by_cases same : other = deploymentName
  · subst same
    simp [agentOf, getConnection]
  · simp [same, agentOf, getConnection, OrderedMap.get?_delete]

theorem removeConnection_keeps (keeps : ∀ writer, Keeps fun state => closing state writer)
    (deploymentName : String) (expectedWriter : Option Nat) :
    Keeps fun state => state.removeConnection closing deploymentName expectedWriter := by
  intro hidden state indexed
  dsimp only [removeConnection]
  split
  · exact indexed
  · rename_i connection present
    split
    · exact indexed
    · have ended := keeps connection.writer _ _ (indexed.begun present)
      exact ended.finished

theorem runCleanup_keeps (keeps : ∀ writer, Keeps fun state => closing state writer) (writer : Nat) :
    Keeps fun state => state.runCleanup closing writer := by
  intro hidden state indexed
  dsimp only [runCleanup]
  split
  · exact indexed
  · split
    · exact indexed
    · split
      · exact indexed
      · split
        · exact indexed
        · exact removeConnection_keeps keeps _ _ _ _ indexed

theorem endWriter_keeps (callsBack : Nat → Bool) (writer : Nat) :
    Keeps fun state => state.endWriter callsBack writer := by
  intro hidden state indexed
  dsimp only [endWriter]
  split
  · exact runCleanup_keeps (fun _ _ _ unchanged => unchanged) writer _ _ indexed
  · exact indexed

theorem addConnection_indexed (indexed : Indexed [] state)
    (deploymentName userId conversationId agentId : String) (writer : Nat) (httpPort : Option Int) (now : Int) :
    Indexed [] (state.addConnection deploymentName userId conversationId agentId writer httpPort now) := by
  have mirrors : state.agentDeployments.Mirrors state.agentOf := by
    simpa [Indexed] using indexed
  have agents : ∀ other,
      (state.addConnection deploymentName userId conversationId agentId writer httpPort now).agentOf other =
        if other = deploymentName then some agentId else state.agentOf other := by
    intro other
    by_cases same : other = deploymentName
    · simp [same, addConnection, agentOf, getConnection]
    · simp [same, addConnection, agentOf, getConnection, OrderedMap.get?_set]
  unfold Indexed
  simp only [List.not_mem_nil, if_false]
  rw [funext agents]
  unfold addConnection
  cases present : state.connections.get? deploymentName with
  | none =>
    have unowned : state.agentOf deploymentName = none := by simp [agentOf, getConnection, present]
    exact mirrors.attach fun former owned => by simp [unowned] at owned
  | some prior =>
    have owned : state.agentOf deploymentName = some prior.agentId := by
      simp [agentOf, getConnection, present]
    dsimp only
    by_cases moved : prior.agentId ≠ agentId
    · rw [if_pos moved]
      have detached := mirrors.detach owned
      have free : ∀ former, (if deploymentName = deploymentName then none
          else state.agentOf deploymentName) = some former → former = agentId := by
        simp
      have attached := ReverseIndex.Mirrors.attach detached free
      convert attached using 2
      rename_i other
      by_cases same : other = deploymentName <;> simp [same]
    · rw [if_neg moved]
      apply mirrors.attach
      intro former isFormer
      rw [owned, Option.some.injEq] at isFormer
      rw [← isFormer]
      exact not_not.mp moved

theorem Indexed.refreshed {updated : WorkerConnection} (indexed : Indexed hidden state)
    (present : state.connections.get? deploymentName = some connection)
    (sameAgent : updated.agentId = connection.agentId) :
    Indexed hidden { state with connections := state.connections.set deploymentName updated } := by
  refine indexed.same ?_ ?_
  · rfl
  · intro other
    by_cases same : other = deploymentName
    · simp [same, agentOf, getConnection, present, sameAgent]
    · simp [same, agentOf, getConnection, OrderedMap.get?_set]

theorem touchConnection_indexed (indexed : Indexed hidden state) (deploymentName : String) (now : Int) :
    Indexed hidden (state.touchConnection deploymentName now) := by
  unfold touchConnection
  split
  · exact indexed
  · rename_i connection present
    exact indexed.refreshed present rfl

theorem sendHeartbeats_indexed (indexed : Indexed hidden state) (now : Int) :
    Indexed hidden (state.sendHeartbeats now) := by
  apply List.foldlRecOn _ _ indexed
  intro current currentIndexed deploymentName _
  split
  · exact currentIndexed
  · rename_i connection present
    exact currentIndexed.refreshed present rfl

section

variable (keeps : ∀ writer, Keeps fun state => closing state writer)
include keeps

theorem cleanupStaleConnections_indexed (indexed : Indexed hidden state) (timeoutMinutes : Option Int) (now : Int) :
    Indexed hidden (state.cleanupStaleConnections closing timeoutMinutes now) := by
  unfold cleanupStaleConnections
  cases timeoutMinutes with
  | none => exact indexed
  | some minutes =>
    apply List.foldlRecOn _ _ indexed
    intro current currentIndexed deploymentName _
    split
    · exact currentIndexed
    · split
      · exact removeConnection_keeps keeps _ _ _ _ currentIndexed
      · exact currentIndexed

theorem shutdown_indexed (indexed : Indexed hidden state) : Indexed hidden (state.shutdown closing) := by
  apply List.foldlRecOn _ _ indexed
  intro current currentIndexed deploymentName _
  exact removeConnection_keeps keeps _ _ _ _ currentIndexed

theorem setUpStream_indexed
    (indexed : Indexed [] state) (writer : Nat) (stream : WorkerStream) (requestAborted : Bool)
    (now : Int) : Indexed [] (state.setUpStream closing writer stream requestAborted now) := by
  unfold setUpStream
  split
  · exact runCleanup_keeps keeps _ _ _ indexed
  · apply addConnection_indexed
    split
    · exact removeConnection_keeps keeps _ _ _ _ indexed
    · exact indexed

end

variable {callsBack : Nat → Bool}

theorem indexed_of_step {event : ConnectionEvent} (indexed : Indexed [] state)
    (moved : (connectionManager callsBack).step state event = some after) : Indexed [] after := by
  have keeps := endWriter_keeps callsBack
  cases event <;> simp only [connectionManager, Option.some.injEq] at moved
  case addConnection =>
    subst moved
    exact addConnection_indexed indexed ..
  case removeConnection =>
    subst moved
    exact removeConnection_keeps keeps _ _ _ _ indexed
  case cleanupStaleConnections =>
    subst moved
    exact cleanupStaleConnections_indexed keeps indexed ..
  case touchConnection =>
    subst moved
    exact touchConnection_indexed indexed ..
  case sendHeartbeats =>
    subst moved
    exact sendHeartbeats_indexed indexed _
  case shutdown =>
    subst moved
    exact shutdown_indexed keeps indexed
  case opened =>
    split at moved
    · cases moved
    · cases moved
      exact indexed
  case setUp =>
    split at moved
    · cases moved
    · split at moved
      · cases moved
      · cases moved
        exact setUpStream_indexed keeps indexed ..
  case closed =>
    subst moved
    exact runCleanup_keeps keeps _ _ _ indexed

theorem Reachable.indexed
    (reached : (connectionManager callsBack).Reachable unrestricted state) : Indexed [] state := by
  apply reached.invariant
  · intro first isStart
    rw [isStart]
    exact ReverseIndex.mirrors_empty
  · intro before event after _ indexed _ moved
    exact indexed_of_step indexed moved

/-- An agent has a URL exactly when a connection of it has one. -/
theorem Reachable.isSome_getHttpUrl_iff {agentId : String}
    (reached : (connectionManager callsBack).Reachable unrestricted state) :
    (state.getHttpUrl agentId).isSome = true ↔
      ∃ deploymentName connection, state.getConnection deploymentName = some connection ∧
        connection.agentId = agentId ∧ connection.httpUrl.isSome = true := by
  have indexed := Reachable.indexed reached
  rw [ConnectionState.getHttpUrl, List.findSome?_isSome_iff]
  constructor
  · intro listed
    obtain ⟨deploymentName, member, hasUrl⟩ := listed
    have owned := (indexed.listed agentId deploymentName).mp member
    simp only [List.not_mem_nil, if_false, agentOf, Option.map_eq_some_iff] at owned
    obtain ⟨connection, present, ofAgent⟩ := owned
    rw [present] at hasUrl
    exact ⟨deploymentName, connection, present, ofAgent, hasUrl⟩
  · intro connected
    obtain ⟨deploymentName, connection, present, ofAgent, hasUrl⟩ := connected
    have member : deploymentName ∈ state.getDeploymentsForAgent agentId :=
      (indexed.listed agentId deploymentName).mpr (by simp [agentOf, present, ofAgent])
    refine ⟨deploymentName, member, ?_⟩
    rw [present]
    exact hasUrl

theorem isSome_getHttpUrl_connected :
    ((start.addConnection "worker-1" "U1" "thread" "agent" 1 (some 8080) 0).getHttpUrl "agent").isSome = true :=
  (Reachable.isSome_getHttpUrl_iff (.step (.start rfl) (show unrestricted _ _ from trivial)
    (rfl : (connectionManager fun _ => true).step .start (.addConnection "worker-1" "U1" "thread" "agent" 1 (some 8080) 0) =
      some _))).mpr ⟨"worker-1", _, rfl, rfl, rfl⟩

/-- What an event does with a writer that closes leaves the connections of other writers. -/
def Spares (writer : Nat) (effect : ConnectionState → ConnectionState) : Prop :=
  ∀ state deploymentName connection, state.getConnection deploymentName = some connection →
    connection.writer ≠ writer → (effect state).getConnection deploymentName = some connection

theorem removeConnection_spares (spares : Spares writer fun state => closing state writer)
    {expectedWriter : Option Nat} (own : ∀ connection, state.getConnection deploymentName = some connection →
      expectedWriter.any (fun expected => decide (connection.writer ≠ expected)) = false → connection.writer = writer)
    {otherName : String} (present : state.getConnection otherName = some connection)
    (newer : connection.writer ≠ writer) :
    (state.removeConnection closing deploymentName expectedWriter).getConnection otherName = some connection := by
  unfold removeConnection
  split
  · exact present
  · rename_i removed found
    split
    · exact present
    · rename_i expected
      have isOwn := own removed found (by simpa using expected)
      have kept := spares
        { state with
          agentDeployments := state.agentDeployments.detach removed.agentId deploymentName }
        otherName connection present newer
      have apart : otherName ≠ deploymentName := by
        intro same
        rw [same, getConnection, found, Option.some.injEq] at present
        exact newer (present ▸ isOwn)
      rw [isOwn]
      exact (OrderedMap.get?_delete_other apart).trans kept

theorem runCleanup_spares (spares : Spares writer fun state => closing state writer) :
    Spares writer fun state => state.runCleanup closing writer := by
  intro state deploymentName connection present newer
  dsimp only [runCleanup]
  split
  · exact present
  · split
    · exact present
    · split
      · exact present
      · split
        · exact present
        · rename_i stream _ _ _ current
          refine removeConnection_spares spares ?_ ?_ newer
          · intro removed found _
            rw [found] at current
            simpa using current
          · exact present

theorem endWriter_spares (callsBack : Nat → Bool) (writer : Nat) :
    Spares writer fun state => state.endWriter callsBack writer := by
  intro state deploymentName connection present newer
  dsimp only [endWriter]
  split
  · exact runCleanup_spares (fun _ _ _ unchanged _ => unchanged) _ _ _ present newer
  · exact present

theorem spares_of_closes {event : ConnectionEvent}
    (closing : event.closes = some writer) (moved : (connectionManager callsBack).step state event = some after)
    (present : state.getConnection deploymentName = some connection)
    (newer : connection.writer ≠ writer) : after.getConnection deploymentName = some connection := by
  cases event <;> simp only [ConnectionEvent.closes, reduceCtorEq, Option.some.injEq] at closing
  case removeConnection removedName expectedWriter =>
    simp only [connectionManager, Option.some.injEq] at moved
    subst moved
    refine removeConnection_spares (endWriter_spares callsBack writer) ?_ present newer
    intro removed found expected
    simpa [closing] using expected
  case closed =>
    subst closing
    simp only [connectionManager, Option.some.injEq] at moved
    subst moved
    exact runCleanup_spares (endWriter_spares callsBack _) _ _ _ present newer

end ConnectionState

/-- In every reachable state a deployment is listed under an agent exactly when it has a connection
of that agent, no agent has an empty set, and closing a stream leaves every connection that another
stream has. -/
theorem connections_and_index_agree (callsBack : Nat → Bool) (state : ConnectionState)
    (reached : (connectionManager callsBack).Reachable unrestricted state) :
    (∀ agentId deploymentName, deploymentName ∈ state.getDeploymentsForAgent agentId ↔
      ∃ connection, state.getConnection deploymentName = some connection ∧ connection.agentId = agentId) ∧
    (∀ agentId deployments, state.agentDeployments.get? agentId = some deployments → deployments ≠ []) ∧
    ∀ event after writer deploymentName connection, event.closes = some writer →
      (connectionManager callsBack).step state event = some after →
      state.getConnection deploymentName = some connection → connection.writer ≠ writer →
        after.getConnection deploymentName = some connection := by
  have indexed := ConnectionState.Reachable.indexed reached
  refine ⟨?_, ?_, ?_⟩
  · intro agentId deploymentName
    have listed := indexed.listed agentId deploymentName
    simp only [List.not_mem_nil, if_false, ConnectionState.agentOf, Option.map_eq_some_iff] at listed
    exact listed
  · exact indexed.nonempty
  · intro event after writer deploymentName connection closes moved present newer
    exact ConnectionState.spares_of_closes closes moved present newer

/-- A deployment connects for one agent, and again for another one. -/
def reconnected : ConnectionState :=
  (ConnectionState.start.addConnection "worker-1" "U1" "thread" "first" 1 none 0).addConnection
    "worker-1" "U1" "thread" "second" 2 none 5

theorem reconnected_agrees :
    reconnected.getDeploymentsForAgent "first" = [] ∧ "worker-1" ∈ reconnected.getDeploymentsForAgent "second" := by
  have first : (connectionManager fun _ => true).step .start
      (.addConnection "worker-1" "U1" "thread" "first" 1 none 0) = some _ := rfl
  have second : (connectionManager fun _ => true).step _
      (.addConnection "worker-1" "U1" "thread" "second" 2 none 5) = some reconnected := rfl
  have reached := ((Machine.Reachable.start rfl).step trivial first).step (show unrestricted _ _ from trivial) second
  have agree := connections_and_index_agree (fun _ => true) reconnected reached
  exact ⟨by decide +kernel, (agree.1 "second" "worker-1").mpr ⟨_, rfl, rfl⟩⟩

end Lobu.Delivery
