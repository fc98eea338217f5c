import Lobu.Foundation.JsonText
import Lobu.Foundation.Utf8

namespace Lobu.Delivery

open Lobu.Foundation

/-! # The event stream

What the gateway writes for a worker, and how the worker reads it back from chunks of bytes.
Handling an event is not awaited, so `handled` lists the calls of `handleEvent`, each with the type
and the data of its event.
-/

structure SseEvent where
  event : String
  data : Json

/-- The message of `sendSSE`, one write. -/
def sseMessage (numbers : NumberText) (sent : SseEvent) : String :=
  "event: " ++ sent.event ++ "\ndata: " ++ stringify numbers.text sent.data ++ "\n\n"

/-- The bytes of the messages sent. -/
def wire (numbers : NumberText) (sent : List SseEvent) : List Nat :=
  encodeUtf8 (sent.flatMap fun event => (sseMessage numbers event).toList)

structure SseReader where
  decoder : TextDecoder
  buffer : List Char
  handled : List (String × String)

def SseReader.start : SseReader where
  decoder := .start
  buffer := []
  handled := []

def eventField : List Char := ['e', 'v', 'e', 'n', 't', ':']

def dataField : List Char := ['d', 'a', 't', 'a', ':']

def readLine (fields : List Char × List Char) (line : List Char) : List Char × List Char :=
  if eventField.isPrefixOf line then (trim (line.drop 6), fields.2)
  else if dataField.isPrefixOf line then (fields.1, trim (line.drop 5))
  else fields

/-- The type and the data of an event, none for one that is skipped. -/
def parseEvent (event : List Char) : Option (String × String) :=
  if trim event = [] then none
  else
    let fields := (event.splitOn '\n').foldl readLine (['m', 'e', 's', 's', 'a', 'g', 'e'], [])
    if fields.2 = [] then none else some (String.ofList fields.1, String.ofList fields.2)

def receive (reader : SseReader) (chunk : List Nat) : SseReader :=
  let decoded := reader.decoder.decode chunk
  let events := splitDoubled '\n' (reader.buffer ++ decoded.2)
  { decoder := decoded.1
    buffer := events.getLast?.getD []
    handled := reader.handled ++ events.dropLast.filterMap parseEvent }

def receiveAll (chunks : List (List Nat)) : SseReader := chunks.foldl receive .start

/-- The reader after some bytes that came in one piece. -/
def readerAfter (bytes : List Nat) : SseReader :=
  let decoded := TextDecoder.after bytes
  { decoder := decoded.1
    buffer := unfinished '\n' decoded.2
    handled := (splitDoubled '\n' decoded.2).dropLast.filterMap parseEvent }

theorem receive_readerAfter (bytes chunk : List Nat) :
    receive (readerAfter bytes) chunk = readerAfter (bytes ++ chunk) := by
  have decoded := TextDecoder.decode_after bytes chunk
  have pieces := splitDoubled_append '\n' (TextDecoder.after bytes).2 ((TextDecoder.after bytes).1.decode chunk).2
  have last := splitDoubled_ne_nil '\n' (unfinished '\n' (TextDecoder.after bytes).2 ++
    ((TextDecoder.after bytes).1.decode chunk).2)
  rw [readerAfter, readerAfter, receive, decoded]
  simp only [SseReader.mk.injEq, true_and]
  constructor
  · rw [unfinished_append]
    rfl
  · rw [pieces, List.dropLast_append_of_ne_nil last, List.filterMap_append]

theorem receiveAll_eq (chunks : List (List Nat)) : receiveAll chunks = readerAfter chunks.flatten := by
  have folded : ∀ bytes, chunks.foldl receive (readerAfter bytes) = readerAfter (bytes ++ chunks.flatten) := by
    induction chunks with
    | nil => simp
    | cons chunk chunks ih =>
      intro bytes
      rw [List.foldl_cons, receive_readerAfter, ih, List.flatten_cons, List.append_assoc]
  exact folded []

end Lobu.Delivery
