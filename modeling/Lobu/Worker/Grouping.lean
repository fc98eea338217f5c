import Mathlib.Data.List.Basic

namespace Lobu.Worker

/-! # Compatible groups

A batch is cut, in its order, into runs of messages that may be answered by one
execution.  A message is compared with the first one of the current group only.

A field holds the canonical text of its value, and `none` when it is undefined.
-/

structure PlatformMetadata where
  automationModificationContext : Option String := none
  responseChannel : Option String := none
  responseId : Option String := none
  botResponseId : Option String := none
  teamId : Option String := none
  responseThreadId : Option String := none
  chatId : Option String := none
  connectionId : Option String := none
deriving DecidableEq

structure MessagePayload where
  messageId : String
  channelId : String
  userId : Option String := none
  agentId : Option String := none
  organizationId : Option String := none
  conversationId : Option String := none
  teamId : Option String := none
  botId : Option String := none
  platform : Option String := none
  resolvedCourseContext : Option String := none
  trustedExecutionScope : Option String := none
  scheduledCourseContext : Option String := none
  platformMetadata : PlatformMetadata := {}
deriving DecidableEq

/-- `timestamp` is when the worker received the message. -/
structure QueuedMessage where
  payload : MessagePayload
  timestamp : Int
deriving DecidableEq

/-- What two messages of one group must agree on. -/
structure BatchIdentity where
  responseChannel : String
  responseId : String
  botResponseId : Option String
  effectiveTeamId : Option String
  responseThreadId : Option String
  chatId : Option String
  connectionId : Option String
  userId : Option String
  agentId : Option String
  organizationId : Option String
  conversationId : Option String
  channelId : String
  teamId : Option String
  botId : Option String
  platform : Option String
  resolvedCourseContext : Option String
  trustedExecutionScope : Option String
  scheduledCourseContext : Option String
deriving DecidableEq

/-- An empty string is as good as none where the code tests for truth. -/
def truthy (text : Option String) : Option String :=
  text.filter fun text => decide (text ≠ "")

def identity (message : QueuedMessage) : BatchIdentity :=
  let payload := message.payload
  let metadata := payload.platformMetadata
  { responseChannel := (truthy metadata.responseChannel).getD payload.channelId
    responseId := (truthy metadata.responseId).getD payload.messageId
    botResponseId := truthy metadata.botResponseId
    effectiveTeamId := truthy (payload.teamId <|> metadata.teamId)
    responseThreadId := metadata.responseThreadId
    chatId := metadata.chatId
    connectionId := metadata.connectionId
    userId := payload.userId
    agentId := payload.agentId
    organizationId := payload.organizationId
    conversationId := payload.conversationId
    channelId := payload.channelId
    teamId := payload.teamId
    botId := payload.botId
    platform := payload.platform
    resolvedCourseContext := payload.resolvedCourseContext
    trustedExecutionScope := payload.trustedExecutionScope
    scheduledCourseContext := payload.scheduledCourseContext }

def modifiesAutomation (message : QueuedMessage) : Bool :=
  (truthy message.payload.platformMetadata.automationModificationContext).isSome

def areBatchCompatible (first next : QueuedMessage) : Bool :=
  if modifiesAutomation first || modifiesAutomation next then false
  else identity first == identity next

abbrev Group := List QueuedMessage

/-- One turn of the loop of `processBatchedMessages`. -/
def addToGroups (groups : List Group) (message : QueuedMessage) : List Group :=
  match groups.getLast? with
  | some (first :: rest) =>
    if areBatchCompatible first message then
      groups.dropLast ++ [first :: rest ++ [message]]
    else groups ++ [[message]]
  | _ => groups ++ [[message]]

def groupBatch (messages : List QueuedMessage) : List Group :=
  messages.foldl addToGroups []

theorem addToGroups_flatten (groups : List Group) (message : QueuedMessage) :
    (addToGroups groups message).flatten = groups.flatten ++ [message] := by
  rw [addToGroups]
  split
  · rename_i first rest last
    split
    · have whole : groups = groups.dropLast ++ [first :: rest] :=
        (List.dropLast_append_getLast? _ last).symm
      have flat := congrArg List.flatten whole
      rw [List.flatten_append, List.flatten_singleton] at flat
      rw [List.flatten_append, List.flatten_singleton, flat]
      simp
    · simp
  · simp

theorem foldl_addToGroups_flatten (messages : List QueuedMessage) (groups : List Group) :
    (messages.foldl addToGroups groups).flatten = groups.flatten ++ messages := by
  induction messages generalizing groups with
  | nil => simp
  | cons message rest ih => rw [List.foldl_cons, ih, addToGroups_flatten, List.append_assoc]; rfl

theorem groupBatch_flatten (messages : List QueuedMessage) : (groupBatch messages).flatten = messages := by
  simpa [groupBatch] using foldl_addToGroups_flatten messages []

theorem groupBatch_ne_nil {messages : List QueuedMessage} (some_ : messages ≠ []) : groupBatch messages ≠ [] := by
  intro none_
  have flat := groupBatch_flatten messages
  rw [none_] at flat
  exact some_ flat.symm

end Lobu.Worker
