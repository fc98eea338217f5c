import Lobu.Foundation.Framing

namespace Lobu.Foundation

/-! # UTF-8

How `TextEncoder` writes a text, and how a `TextDecoder` reads bytes that come in pieces: byte by
byte, with what it holds of a character between two bytes as its state.
-/

/-- The bytes of a code point. -/
def encodePoint (point : Nat) : List Nat :=
  if point < 0x80 then [point]
  else if point < 0x800 then [0xC0 + point / 64, 0x80 + point % 64]
  else if point < 0x10000 then
    [0xE0 + point / 4096, 0x80 + point / 64 % 64, 0x80 + point % 64]
  else
    [0xF0 + point / 262144, 0x80 + point / 4096 % 64, 0x80 + point / 64 % 64, 0x80 + point % 64]

def encodeUtf8 (text : List Char) : List Nat := text.flatMap fun c => encodePoint c.toNat

/-- How many bytes a character still needs, how many were seen, their bits, and the bounds of the
next byte. -/
structure Utf8State where
  needed : Nat
  seen : Nat
  point : Nat
  lower : Nat
  upper : Nat

def Utf8State.between : Utf8State where
  needed := 0
  seen := 0
  point := 0
  lower := 0x80
  upper := 0xBF

def replacement : Char := '\uFFFD'

/-- The first byte of a character. -/
def leadByte (byte : Nat) : Utf8State × List Char :=
  if byte ≤ 0x7F then (.between, [Char.ofNat byte])
  else if 0xC2 ≤ byte ∧ byte ≤ 0xDF then
    ({ Utf8State.between with needed := 1, point := byte % 32 }, [])
  else if 0xE0 ≤ byte ∧ byte ≤ 0xEF then
    ({ Utf8State.between with
        needed := 2
        point := byte % 16
        lower := if byte = 0xE0 then 0xA0 else 0x80
        upper := if byte = 0xED then 0x9F else 0xBF }, [])
  else if 0xF0 ≤ byte ∧ byte ≤ 0xF4 then
    ({ Utf8State.between with
        needed := 3
        point := byte % 8
        lower := if byte = 0xF0 then 0x90 else 0x80
        upper := if byte = 0xF4 then 0x8F else 0xBF }, [])
  else (.between, [replacement])

/-- A byte that cannot follow ends the character with a replacement and begins another. -/
def decodeByte (state : Utf8State) (byte : Nat) : Utf8State × List Char :=
  if state.needed = 0 then leadByte byte
  else if state.lower ≤ byte ∧ byte ≤ state.upper then
    let point := state.point * 64 + byte % 64
    let seen := state.seen + 1
    if seen = state.needed then (.between, [Char.ofNat point])
    else
      ({ state with seen := seen, point := point, lower := 0x80, upper := 0xBF }, [])
  else ((leadByte byte).1, replacement :: (leadByte byte).2)

def decodeBytes (state : Utf8State) : List Nat → Utf8State × List Char
  | [] => (state, [])
  | byte :: bytes =>
    let first := decodeByte state byte
    let more := decodeBytes first.1 bytes
    (more.1, first.2 ++ more.2)

theorem decodeBytes_append (state : Utf8State) (bytes more : List Nat) :
    decodeBytes state (bytes ++ more) = ((decodeBytes (decodeBytes state bytes).1 more).1,
        (decodeBytes state bytes).2 ++ (decodeBytes (decodeBytes state bytes).1 more).2) := by
  induction bytes generalizing state with
  | nil => simp [decodeBytes]
  | cons byte bytes ih => simp [decodeBytes, ih, List.append_assoc]

theorem decodeByte_between (byte : Nat) : decodeByte .between byte = leadByte byte := rfl

theorem decodeByte_follow {state : Utf8State} {byte : Nat}
    (bounds : state.lower ≤ byte ∧ byte ≤ state.upper) (missing : state.seen + 1 < state.needed) :
    decodeByte state byte = (⟨state.needed, state.seen + 1, state.point * 64 + byte % 64, 0x80, 0xBF⟩, []) := by
  rw [decodeByte, if_neg (by omega), if_pos bounds]
  simp only
  rw [if_neg (by omega)]

theorem decodeByte_last {state : Utf8State} {byte : Nat}
    (bounds : state.lower ≤ byte ∧ byte ≤ state.upper) (last : state.seen + 1 = state.needed) :
    decodeByte state byte = (.between, [Char.ofNat (state.point * 64 + byte % 64)]) := by
  rw [decodeByte, if_neg (by omega), if_pos bounds]
  simp only
  rw [if_pos last]

/-- The bytes that follow the first one, from the bits in them. -/
def followers (bits : List Nat) : List Nat := bits.map (0x80 + ·)

theorem decodeBytes_followers (state : Utf8State) (first : Nat) (bits : List Nat)
    (bounds : state.lower ≤ 0x80 + first ∧ 0x80 + first ≤ state.upper)
    (count : state.seen + (bits.length + 1) = state.needed) (small : ∀ value ∈ first :: bits, value < 64) :
    (decodeBytes state (followers (first :: bits)).dropLast).2 = [] ∧ decodeBytes state (followers (first :: bits)) =
      (.between, [Char.ofNat ((first :: bits).foldl (fun point value => point * 64 + value) state.point)]) := by
  have fits := small first List.mem_cons_self
  have low : (0x80 + first) % 64 = first := by omega
  induction bits generalizing state first with
  | nil =>
    have last := decodeByte_last bounds (by simpa using count)
    rw [low] at last
    constructor
    · rfl
    · simp [followers, decodeBytes, last]
  | cons next bits ih =>
    rw [List.length_cons] at count
    have follow := decodeByte_follow bounds (by omega)
    rw [low] at follow
    have nextFits := small next (by simp)
    obtain ⟨front, whole⟩ := ih ⟨state.needed, state.seen + 1, state.point * 64 + first, 0x80, 0xBF⟩ next
      (by simp only; omega) (by simp only; omega)
      (fun value member => small value (List.mem_cons_of_mem _ member)) nextFits (by omega)
    constructor
    · have cut : (followers (first :: next :: bits)).dropLast =
          (0x80 + first) :: (followers (next :: bits)).dropLast := rfl
      rw [cut, decodeBytes, follow, front]
      rfl
    · have written : followers (first :: next :: bits) = (0x80 + first) :: followers (next :: bits) := rfl
      rw [written, decodeBytes, follow, whole]
      rfl

theorem decodeBytes_lead {lead needed point lower upper : Nat} (first : Nat) (bits : List Nat)
    (begins : leadByte lead = (⟨needed, 0, point, lower, upper⟩, []))
    (bounds : lower ≤ 0x80 + first ∧ 0x80 + first ≤ upper) (count : bits.length + 1 = needed)
    (small : ∀ value ∈ first :: bits, value < 64) :
    (decodeBytes .between (lead :: followers (first :: bits)).dropLast).2 = [] ∧
    decodeBytes .between (lead :: followers (first :: bits)) =
      (.between, [Char.ofNat ((first :: bits).foldl (fun point value => point * 64 + value) point)]) := by
  obtain ⟨front, whole⟩ := decodeBytes_followers ⟨needed, 0, point, lower, upper⟩ first bits
    bounds (by simpa using count) small
  constructor
  · have cut : (lead :: followers (first :: bits)).dropLast = lead :: (followers (first :: bits)).dropLast := rfl
    rw [cut, decodeBytes, decodeByte_between, begins, front]
    rfl
  · rw [decodeBytes, decodeByte_between, begins, whole]
    rfl

theorem decodeBytes_point {point : Nat} (valid : point < 0xd800 ∨ 0xdfff < point ∧ point < 0x110000) :
    (decodeBytes .between (encodePoint point).dropLast).2 = [] ∧
    decodeBytes .between (encodePoint point) = (.between, [Char.ofNat point]) := by
  unfold encodePoint
  split
  · refine ⟨rfl, ?_⟩
    rw [decodeBytes, decodeByte_between, leadByte, if_pos (by omega)]
    rfl
  split
  · have begins : leadByte (0xC0 + point / 64) = (⟨1, 0, point / 64, 0x80, 0xBF⟩, []) := by
      rw [leadByte, if_neg (by omega), if_pos (by omega)]
      simp only [Utf8State.between, Prod.mk.injEq, Utf8State.mk.injEq, and_true, true_and]
      omega
    have read := decodeBytes_lead (point % 64) [] begins (by omega) rfl (by simp; omega)
    have sum : point / 64 * 64 + point % 64 = point := by omega
    simpa [followers, sum] using read
  split
  · have begins : leadByte (0xE0 + point / 4096) =
        (⟨2, 0, point / 4096, if 0xE0 + point / 4096 = 0xE0 then 0xA0 else 0x80,
          if 0xE0 + point / 4096 = 0xED then 0x9F else 0xBF⟩, []) := by
      rw [leadByte, if_neg (by omega), if_neg (by omega), if_pos (by omega)]
      simp only [Utf8State.between, Prod.mk.injEq, Utf8State.mk.injEq, and_true, true_and]
      omega
    have read := decodeBytes_lead (point / 64 % 64) [point % 64] begins
      (by constructor <;> split <;> omega) rfl (by simp; omega)
    have sum : (point / 4096 * 64 + point / 64 % 64) * 64 + point % 64 = point := by omega
    simpa [followers, sum] using read
  · have begins : leadByte (0xF0 + point / 262144) =
        (⟨3, 0, point / 262144, if 0xF0 + point / 262144 = 0xF0 then 0x90 else 0x80,
          if 0xF0 + point / 262144 = 0xF4 then 0x8F else 0xBF⟩, []) := by
      rw [leadByte, if_neg (by omega), if_neg (by omega), if_neg (by omega), if_pos (by omega)]
      simp only [Utf8State.between, Prod.mk.injEq, Utf8State.mk.injEq, and_true, true_and]
      omega
    have read := decodeBytes_lead (point / 4096 % 64) [point / 64 % 64, point % 64] begins
      (by constructor <;> split <;> omega) rfl (by simp; omega)
    have sum : ((point / 262144 * 64 + point / 4096 % 64) * 64 + point / 64 % 64) * 64 +
        point % 64 = point := by omega
    simpa [followers, sum] using read

theorem decodeBytes_char (c : Char) :
    (decodeBytes .between (encodePoint c.toNat).dropLast).2 = [] ∧
    decodeBytes .between (encodePoint c.toNat) = (.between, [c]) := by
  have valid : c.toNat < 0xd800 ∨ 0xdfff < c.toNat ∧ c.toNat < 0x110000 := c.valid
  have read := decodeBytes_point valid
  rwa [Char.ofNat_toNat] at read

theorem decodeBytes_encodeUtf8 (text : List Char) : decodeBytes .between (encodeUtf8 text) = (.between, text) := by
  induction text with
  | nil => rfl
  | cons c text ih =>
    rw [encodeUtf8] at ih
    rw [encodeUtf8, List.flatMap_cons, decodeBytes_append, (decodeBytes_char c).2, ih]
    rfl

/-- Of the bytes of a text up to any point, all whole characters are read and less than one is
held back. -/
theorem decodeBytes_prefix {text : List Char} {bytes : List Nat} (cut : bytes <+: encodeUtf8 text) :
    ∃ read left part, text = read ++ left ∧ bytes = encodeUtf8 read ++ part ∧
      (decodeBytes .between bytes).2 = read ∧ (left = [] → part = []) ∧
      ∀ c ∈ left.head?, part <+: encodePoint c.toNat ∧ part ≠ encodePoint c.toNat := by
  obtain ⟨read, left, part, whole, shape, ended, proper⟩ := exists_of_prefix_flatMap cut
  refine ⟨read, left, part, whole, shape, ?_, ended, proper⟩
  have silent : (decodeBytes .between part).2 = [] := by
    cases left with
    | nil =>
      rw [ended rfl]
      rfl
    | cons c left =>
      obtain ⟨begins, shorter⟩ := proper c rfl
      obtain ⟨rest, front⟩ := prefix_dropLast begins shorter
      have nothing := (decodeBytes_char c).1
      rw [← front, decodeBytes_append] at nothing
      exact (List.append_eq_nil_iff.mp nothing).1
  have read' := decodeBytes_encodeUtf8 read
  rw [encodeUtf8] at read'
  rw [shape, decodeBytes_append, read', silent, List.append_nil]

/-- A decoder, which drops a byte order mark at the very beginning. -/
structure TextDecoder where
  state : Utf8State
  begun : Bool

def TextDecoder.start : TextDecoder where
  state := .between
  begun := false

def dropMark : List Char → List Char
  | first :: rest => if first = '\uFEFF' then rest else first :: rest
  | [] => []

/-- `decoder.decode(chunk, { stream: true })` -/
def TextDecoder.decode (decoder : TextDecoder) (chunk : List Nat) : TextDecoder × List Char :=
  let (state, text) := decodeBytes decoder.state chunk
  if decoder.begun then (⟨state, true⟩, text)
  else (⟨state, !text.isEmpty⟩, dropMark text)

/-- The decoder after some bytes, and all that it has given for them. -/
def TextDecoder.after (bytes : List Nat) : TextDecoder × List Char :=
  let (state, text) := decodeBytes .between bytes
  (⟨state, !text.isEmpty⟩, dropMark text)

/-- `new TextDecoder("utf-8", { fatal: true }).decode(bytes)`: nothing is replaced. -/
def decodeFatal (bytes : List Nat) : Option (List Char) :=
  let text := (decodeBytes .between bytes).2
  if encodeUtf8 text = bytes then some (dropMark text) else none

theorem decodeFatal_encodeUtf8 (text : List Char) : decodeFatal (encodeUtf8 text) = some (dropMark text) := by
  rw [decodeFatal, decodeBytes_encodeUtf8]
  exact if_pos rfl

theorem decodeFatal_eq_some_iff {bytes : List Nat} {read : List Char} :
    decodeFatal bytes = some read ↔ ∃ text, bytes = encodeUtf8 text ∧ read = dropMark text := by
  constructor
  · intro decoded
    simp only [decodeFatal, Option.ite_none_right_eq_some, Option.some.injEq] at decoded
    exact ⟨_, decoded.1.symm, decoded.2.symm⟩
  · rintro ⟨text, rfl, rfl⟩
    exact decodeFatal_encodeUtf8 text

theorem encodeUtf8_injective {text other : List Char} (same : encodeUtf8 text = encodeUtf8 other) : text = other := by
  have read := congrArg (decodeBytes .between) same
  rw [decodeBytes_encodeUtf8, decodeBytes_encodeUtf8] at read
  exact congrArg Prod.snd read

theorem TextDecoder.decode_after (bytes chunk : List Nat) :
    (TextDecoder.after (bytes ++ chunk)) = (((TextDecoder.after bytes).1.decode chunk).1,
        (TextDecoder.after bytes).2 ++ ((TextDecoder.after bytes).1.decode chunk).2) := by
  rw [TextDecoder.after, TextDecoder.after, decodeBytes_append]
  rcases decodeBytes .between bytes with ⟨state, text⟩
  rcases more : decodeBytes state chunk with ⟨ended, later⟩
  cases text with
  | nil => simp [TextDecoder.decode, dropMark, more]
  | cons first rest =>
    simp only [TextDecoder.decode, more, List.isEmpty_cons, Bool.not_false, if_true, List.cons_append, dropMark]
    split <;> rfl

end Lobu.Foundation
