import Lobu.Delivery.EventStream

namespace Lobu.Delivery

open Lobu.Foundation

/-! # What is sent is what is read

An event whose name is one line without blanks around it is read back from its message, wherever
the bytes are cut.
-/

/-- The name fits on the line that it gets. -/
structure SseEvent.Named (sent : SseEvent) : Prop where
  oneLine : '\n' ∉ sent.event.toList
  bare : trim sent.event.toList = sent.event.toList

/-- The lines of a message. -/
def eventLine (sent : SseEvent) : List Char := eventField ++ ' ' :: sent.event.toList

def dataLine (numbers : NumberText) (sent : SseEvent) : List Char :=
  dataField ++ ' ' :: (stringify numbers.text sent.data).toList

def frame (numbers : NumberText) (sent : SseEvent) : List Char :=
  eventLine sent ++ '\n' :: dataLine numbers sent

variable {numbers : NumberText} {sent : List SseEvent} {event : SseEvent}

theorem sseMessage_toList (numbers : NumberText) (event : SseEvent) :
    (sseMessage numbers event).toList = frame numbers event ++ ['\n', '\n'] := by
  simp [sseMessage, frame, eventLine, dataLine, eventField, dataField]

theorem newline_not_eventLine (named : event.Named) : '\n' ∉ eventLine event := by
  rw [eventLine, List.mem_append, List.mem_cons, not_or, not_or]
  exact ⟨by decide, by decide, named.oneLine⟩

theorem newline_not_dataLine (numbers : NumberText) (event : SseEvent) : '\n' ∉ dataLine numbers event := by
  rw [dataLine, List.mem_append, List.mem_cons, not_or, not_or]
  exact ⟨by decide, by decide, newline_not_stringify numbers event.data⟩

theorem splitDoubled_frame (named : event.Named) (text : List Char) :
    splitDoubled '\n' (frame numbers event ++ '\n' :: '\n' :: text) =
      frame numbers event :: splitDoubled '\n' text :=
  splitDoubled_lines text (newline_not_eventLine named) (newline_not_dataLine numbers event)
    (List.cons_ne_nil _ _)

theorem splitDoubled_frames (numbers : NumberText) (named : ∀ event ∈ sent, event.Named) (text : List Char) :
    splitDoubled '\n' ((sent.flatMap fun event => (sseMessage numbers event).toList) ++ text) =
      sent.map (frame numbers) ++ splitDoubled '\n' text := by
  induction sent with
  | nil => rfl
  | cons event sent ih =>
    have rest := ih fun other member => named other (List.mem_cons_of_mem _ member)
    rw [List.flatMap_cons, sseMessage_toList, List.append_assoc, List.append_assoc,
      List.cons_append, List.cons_append, List.nil_append,
      splitDoubled_frame (named event List.mem_cons_self), rest]
    rfl

theorem trim_blank_cons (text : List Char) : trim (' ' :: text) = trim text := by
  rw [trim, trim, trimStart, List.dropWhile_cons_of_pos (by decide)]
  rfl

theorem trim_frame_ne_nil (numbers : NumberText) (event : SseEvent) : trim (frame numbers event) ≠ [] := by
  intro blank
  have spaces : ∀ c ∈ frame numbers event, isSpace c = true := by
    intro c member
    by_contra letter
    rw [trim, trimEnd, List.rdropWhile_eq_nil_iff] at blank
    have started : trimStart (frame numbers event) = frame numbers event := by
      rw [trimStart, frame, eventLine, List.append_assoc]
      exact List.dropWhile_cons_of_neg (by decide)
    rw [started] at blank
    exact letter (blank c member)
  have first := spaces 'e' (by simp [frame, eventLine, eventField])
  revert first
  decide

theorem parseEvent_frame (named : event.Named) :
    parseEvent (frame numbers event) = some (event.event, stringify numbers.text event.data) := by
  have lines : (frame numbers event).splitOn '\n' = [eventLine event, dataLine numbers event] := by
    rw [frame, List.splitOn_append_cons_self, List.splitOn_eq_singleton (newline_not_eventLine named),
      List.splitOn_eq_singleton (newline_not_dataLine numbers event)]
    rfl
  have first : readLine (['m', 'e', 's', 's', 'a', 'g', 'e'], []) (eventLine event) = (event.event.toList, []) := by
    have marked : eventField.isPrefixOf (eventLine event) = true := by
      rw [List.isPrefixOf_iff_prefix]
      exact List.prefix_append _ _
    have rest : (eventLine event).drop 6 = ' ' :: event.event.toList := rfl
    rw [readLine, if_pos marked, rest, trim_blank_cons, named.bare]
  have second : readLine (event.event.toList, []) (dataLine numbers event) =
      (event.event.toList, (stringify numbers.text event.data).toList) := by
    have other : eventField.isPrefixOf (dataLine numbers event) = false := rfl
    have marked : dataField.isPrefixOf (dataLine numbers event) = true := by
      rw [List.isPrefixOf_iff_prefix]
      exact List.prefix_append _ _
    have rest : (dataLine numbers event).drop 5 = ' ' :: (stringify numbers.text event.data).toList := rfl
    rw [readLine, other, if_neg (by decide), if_pos marked, rest, trim_blank_cons, trim_stringify]
  have filled : (stringify numbers.text event.data).toList ≠ [] := by
    obtain ⟨c, rest, begins, _⟩ := stringify_begins numbers event.data
    rw [begins]
    exact List.cons_ne_nil c rest
  rw [parseEvent, if_neg (trim_frame_ne_nil numbers event), lines]
  simp only [List.foldl_cons, List.foldl_nil, first, second, if_neg filled, String.ofList_toList]

/-- The call of `handleEvent` for an event. -/
def handledAs (numbers : NumberText) (event : SseEvent) : String × String :=
  (event.event, stringify numbers.text event.data)

theorem dropMark_messages {read left : List Char}
    (whole : (sent.flatMap fun event => (sseMessage numbers event).toList) = read ++ left) :
    dropMark read = read := by
  cases read with
  | nil => rfl
  | cons first read =>
    cases sent with
    | nil => contradiction
    | cons event sent =>
      rw [List.flatMap_cons, sseMessage_toList, frame, eventLine] at whole
      have letter : first = 'e' := (List.cons.inj whole).1.symm
      rw [dropMark, letter, if_neg (by decide)]

theorem readerAfter_messages {bytes : List Nat} {complete : List SseEvent} {tail : List Char}
    (named : ∀ event ∈ complete, event.Named) (read : (TextDecoder.after bytes).2 =
      (complete.flatMap fun event => (sseMessage numbers event).toList) ++ tail)
    (waiting : splitDoubled '\n' tail = [tail]) :
    (readerAfter bytes).handled = complete.map (handledAs numbers) ∧ (readerAfter bytes).buffer = tail := by
  have pieces := splitDoubled_frames numbers named tail
  rw [waiting] at pieces
  constructor
  · have parsed : (complete.map (frame numbers)).filterMap parseEvent = complete.map (handledAs numbers) := by
      rw [List.filterMap_map, ← List.filterMap_eq_map]
      exact List.filterMap_congr fun event member => parseEvent_frame (named event member)
    rw [readerAfter, read]
    simp only [pieces, List.dropLast_concat, parsed]
  · rw [readerAfter, read]
    simp only [unfinished, pieces, List.getLast?_append, List.getLast?_singleton, Option.some_or, Option.getD_some]

theorem waiting_of_part {tail : List Char} {next : SseEvent} (named : next.Named)
    (begins : tail <+: (sseMessage numbers next).toList)
    (shorter : tail ≠ (sseMessage numbers next).toList) : splitDoubled '\n' tail = [tail] := by
  rw [sseMessage_toList] at begins shorter
  exact splitDoubled_unfinished (splitDoubled_frame named []) begins shorter

theorem length_encodePoint (point : Nat) : (encodePoint point).length ≤ 4 := by
  unfold encodePoint
  split <;> [skip; split <;> [skip; split]] <;> simp

theorem missing_of_part {tail left : List Char} {next : SseEvent} {part : List Nat}
    (follows : (next :: sent).flatMap (fun event => (sseMessage numbers event).toList) = tail ++ left)
    (begins : tail <+: (sseMessage numbers next).toList) (shorter : tail ≠ (sseMessage numbers next).toList)
    (proper : ∀ c ∈ left.head?, part <+: encodePoint c.toNat ∧ part ≠ encodePoint c.toNat) :
    ∃ more, more ≠ [] ∧ wire numbers [next] = encodeUtf8 tail ++ part ++ more := by
  obtain ⟨lacking, same⟩ := begins
  have message : wire numbers [next] = encodeUtf8 (tail ++ lacking) := by
    rw [same, wire, List.flatMap_singleton]
  rw [List.flatMap_cons, ← same, List.append_assoc] at follows
  have rest := List.append_cancel_left follows
  cases lacking with
  | nil => exact absurd (by rw [← same, List.append_nil]) shorter
  | cons c lacking =>
    rw [List.cons_append] at rest
    obtain ⟨⟨bytes, filled⟩, unlike⟩ := proper c (by rw [← rest]; rfl)
    have nonempty : bytes ≠ [] := by
      rintro rfl
      exact unlike (by rw [← filled, List.append_nil])
    refine ⟨bytes ++ encodeUtf8 lacking, by simp [nonempty], ?_⟩
    rw [message, encodeUtf8, encodeUtf8, encodeUtf8, List.flatMap_append, List.flatMap_cons, ← filled]
    simp only [List.append_assoc]

/-- Whatever has come of the stream, and however it was cut: the events of the whole messages in
it are handled, in their order and once each, and of the next message what has come is kept, less
than one character of it in the decoder.  When all has come, all is handled and nothing kept; and
the text that is handled stands for the data sent. -/
theorem sse_framing_round_trip (numbers : NumberText) (sent : List SseEvent)
    (named : ∀ event ∈ sent, event.Named) (chunks : List (List Nat)) :
    (chunks.flatten <+: wire numbers sent → ∃ complete rest part, sent = complete ++ rest ∧
        (receiveAll chunks).handled = complete.map (handledAs numbers) ∧
        chunks.flatten = wire numbers complete ++ encodeUtf8 (receiveAll chunks).buffer ++ part ∧
        part.length < 4 ∧ (rest = [] → (receiveAll chunks).buffer = [] ∧ part = []) ∧
        ∀ next ∈ rest.head?, ∃ more, more ≠ [] ∧
          wire numbers [next] = encodeUtf8 (receiveAll chunks).buffer ++ part ++ more) ∧
    (chunks.flatten = wire numbers sent → (receiveAll chunks).handled = sent.map (handledAs numbers) ∧
        (receiveAll chunks).buffer = []) ∧ ∀ event ∈ sent, ∀ other : Json,
      stringify numbers.text other = (handledAs numbers event).2 → other.written = event.data.written := by
  refine ⟨?_, ?_, ?_⟩
  · intro cut
    obtain ⟨read, left, part, whole, shape, decoded, ended, proper⟩ := decodeBytes_prefix cut
    obtain ⟨complete, rest, tail, parts, front, drained, unread⟩ :=
      exists_of_prefix_flatMap ⟨left, whole.symm⟩
    have namedComplete : ∀ event ∈ complete, event.Named := by
      intro event member
      exact named event (by rw [parts]; exact List.mem_append_left _ member)
    have waiting : splitDoubled '\n' tail = [tail] := by
      cases rest with
      | nil =>
        rw [drained rfl]
        rfl
      | cons next rest =>
        have namedNext := named next (by rw [parts]; simp)
        exact waiting_of_part namedNext (unread next rfl).1 (unread next rfl).2
    have text : (TextDecoder.after chunks.flatten).2 =
        (complete.flatMap fun event => (sseMessage numbers event).toList) ++ tail := by
      rw [TextDecoder.after]
      simp only [decoded]
      rw [dropMark_messages whole, front]
    obtain ⟨handled, buffer⟩ := readerAfter_messages namedComplete text waiting
    rw [receiveAll_eq, handled, buffer]
    refine ⟨complete, rest, part, parts, rfl, ?_, ?_, ?_, ?_⟩
    · rw [shape, front, wire, encodeUtf8, encodeUtf8, encodeUtf8, List.flatMap_append]
    · cases left with
      | nil => rw [ended rfl]; decide
      | cons c left =>
        obtain ⟨begins, shorter⟩ := proper c rfl
        have less : part.length ≠ (encodePoint c.toNat).length :=
          fun same => shorter (begins.eq_of_length same)
        have most := length_encodePoint c.toNat
        have within := begins.length_le
        omega
    · intro none
      refine ⟨drained none, ended ?_⟩
      subst none
      rw [drained rfl] at front
      rw [List.append_nil] at parts front
      rw [parts, front] at whole
      exact List.self_eq_append_right.mp whole
    · intro next head
      obtain ⟨others, rfl⟩ := List.head?_eq_some_iff.mp head
      have follows : (next :: others).flatMap (fun event => (sseMessage numbers event).toList) = tail ++ left := by
        rw [parts, List.flatMap_append, front, List.append_assoc] at whole
        exact List.append_cancel_left whole
      exact missing_of_part follows (unread next head).1 (unread next head).2 proper
  · intro complete
    have text : (TextDecoder.after chunks.flatten).2 =
        (sent.flatMap fun event => (sseMessage numbers event).toList) ++ [] := by
      rw [TextDecoder.after, complete, wire, decodeBytes_encodeUtf8]
      simp only
      rw [dropMark_messages (List.append_nil _).symm, List.append_nil]
    rw [receiveAll_eq]
    exact readerAfter_messages named text rfl
  · intro event _ other same
    exact (stringify_eq_iff numbers).mp same

/-- A job in three chunks, cut within a character and between the two line feeds. -/
theorem sse_framing_round_trip_job :
    let ping : SseEvent := ⟨"ping", .null⟩
    let job : SseEvent := ⟨"job", .string "é\n"⟩
    let bytes := wire wholeNumbers [ping, job]
    (receiveAll [bytes.take 23, (bytes.drop 23).take 20, bytes.drop 43]).handled =
      [("ping", "null"), ("job", "\"é\\n\"")] := by
  intro ping job bytes
  have named : ∀ event ∈ [ping, job], event.Named := by
    intro event member
    rw [List.mem_cons, List.mem_singleton] at member
    rcases member with rfl | rfl <;> exact ⟨by decide +kernel, by decide +kernel⟩
  have all : [bytes.take 23, (bytes.drop 23).take 20, bytes.drop 43].flatten = bytes := by
    decide +kernel
  rw [((sse_framing_round_trip wholeNumbers [ping, job] named _).2.1 all).1]
  decide +kernel

/-- Blanks around a name are lost, and a name of two lines loses the second. -/
theorem names_not_kept :
    (receiveAll [wire wholeNumbers [⟨" ping", .null⟩]]).handled ≠ [(" ping", "null")] ∧
    (receiveAll [wire wholeNumbers [⟨"job\nnow", .null⟩]]).handled ≠ [("job\nnow", "null")] := by
  decide +kernel

end Lobu.Delivery
