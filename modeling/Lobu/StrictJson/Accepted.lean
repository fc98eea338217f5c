import Lobu.StrictJson.Elements

namespace Lobu.StrictJson

open Lobu.Foundation

/-! # What the parser accepts

A value is read where it is spelled and fits into the limits.  One step down in the nesting is
proved for any reader of what lies inside, the whole parser by induction on the levels left.
-/

theorem Decided.result {ε α : Type} {fits : Prop} {outcome : Except ε α} {result other : α}
    (decided : Decided fits outcome result) (same : fits → result = other) : Decided fits outcome other :=
  ⟨fun holds => same holds ▸ decided.1 holds, decided.2⟩

theorem Decided.after {ε α β : Type} {fits : Prop} {outcome : Except ε α} {result : α}
    {rest : α → Except ε β} {final : β} (same : outcome = .ok result)
    (next : Decided fits (rest result) final) : Decided fits (outcome >>= rest) final := by
  rw [same]
  exact next

namespace StrictJsonParser

variable {ν : Type}

section Fits

variable (parser : StrictJsonParser ν) (depth count : Nat)

/-- A value with `depth` arrays and objects around it and `count` values begun before it. -/
def Fits (value : JsonTree ν) : Prop :=
  value.Strict parser.numbers.isFinite ∧ depth + value.depth ≤ parser.maxDepth ∧
    count + value.count ≤ parser.maxValues

def FitsAll (values : List (JsonTree ν)) : Prop :=
  JsonTree.StrictItems parser.numbers.isFinite values ∧
    depth + JsonTree.itemsDepth values ≤ parser.maxDepth ∧
    count + JsonTree.itemsCount values ≤ parser.maxValues

/-- Nothing is beyond the limits yet. -/
def Within : Prop := depth ≤ parser.maxDepth ∧ count ≤ parser.maxValues

variable {parser depth count}

theorem fitsAll_nil (within : parser.Within depth count) : parser.FitsAll depth count [] :=
  ⟨trivial, within.1, within.2⟩

theorem fitsAll_cons {value : JsonTree ν} {values : List (JsonTree ν)} :
    parser.FitsAll depth count (value :: values) ↔
      parser.Fits (depth + 1) count value ∧ parser.FitsAll depth (count + value.count) values := by
  simp only [FitsAll, Fits, JsonTree.StrictItems, JsonTree.itemsDepth, JsonTree.itemsCount]
  constructor
  · rintro ⟨⟨first, others⟩, deep, many⟩
    exact ⟨⟨first, by omega, by omega⟩, others, by omega, by omega⟩
  · rintro ⟨⟨first, deep, many⟩, others, deeper, more⟩
    exact ⟨⟨first, others⟩, by omega, by omega⟩

theorem Fits.within {value : JsonTree ν} (fits : parser.Fits depth count value) :
    parser.Within depth (count + 1) := by
  have positive : 1 ≤ value.count := by
    cases value <;> simp [JsonTree.count]
  exact ⟨by have := fits.2.1; omega, by have := fits.2.2; omega⟩

theorem fits_array {items : List (JsonTree ν)} :
    parser.Fits depth count (.array items) ↔ parser.FitsAll depth (count + 1) items := by
  simp only [Fits, FitsAll, JsonTree.Strict, JsonTree.depth, JsonTree.count]
  constructor
  · rintro ⟨strict, deep, many⟩
    exact ⟨strict, deep, by omega⟩
  · rintro ⟨strict, deep, many⟩
    exact ⟨strict, deep, by omega⟩

theorem fits_object {members : List (List Nat × JsonTree ν)} :
    parser.Fits depth count (.object members) ↔
      (members.map Prod.fst).Nodup ∧ parser.FitsAll depth (count + 1) (members.map Prod.snd) := by
  simp only [Fits, FitsAll, JsonTree.Strict, JsonTree.depth, JsonTree.count,
    JsonTree.strictMembers_iff, JsonTree.membersDepth_eq, JsonTree.membersCount_eq]
  constructor
  · rintro ⟨⟨once, strict⟩, deep, many⟩
    exact ⟨once, strict, deep, by omega⟩
  · rintro ⟨once, strict, deep, many⟩
    exact ⟨⟨once, strict⟩, deep, by omega⟩

end Fits

section AllowedAll

variable {σ α : Type} {push : σ → α → σ} {size : α → Nat} {result : σ} {count : Nat}
  {entries : List α}

theorem allowedAll_and {first second : σ → Nat → α → Prop} :
    AllowedAll push (fun result count entry => first result count entry ∧ second result count entry)
      size result count entries ↔ AllowedAll push first size result count entries ∧
      AllowedAll push second size result count entries := by
  induction entries generalizing result count with
  | nil => simp [AllowedAll]
  | cons entry entries ih =>
    simp only [AllowedAll, ih]
    tauto

variable {parser : StrictJsonParser ν} {depth : Nat}

theorem allowedAll_fits (push : σ → α → σ) (tree : α → JsonTree ν) (result : σ) (entries : List α)
    (within : parser.Within depth count) :
    AllowedAll push (fun _ count entry => parser.Fits (depth + 1) count (tree entry))
      (fun entry => (tree entry).count) result count entries ↔ parser.FitsAll depth count (entries.map tree) := by
  induction entries generalizing result count with
  | nil => exact iff_of_true trivial (fitsAll_nil within)
  | cons entry entries ih =>
    rw [AllowedAll, List.map_cons, fitsAll_cons]
    constructor
    · rintro ⟨first, others⟩
      have reached : parser.Within depth (count + (tree entry).count) := ⟨within.1, first.2.2⟩
      exact ⟨first, (ih _ reached).mp others⟩
    · rintro ⟨first, others⟩
      have reached : parser.Within depth (count + (tree entry).count) := ⟨within.1, first.2.2⟩
      exact ⟨first, (ih _ reached).mpr others⟩

end AllowedAll

theorem foldl_push {α : Type} (items result : List α) :
    items.foldl (fun items value => items ++ [value]) result = result ++ items := by
  induction items generalizing result with
  | nil => exact (List.append_nil result).symm
  | cons item items ih => rw [List.foldl_cons, ih, List.append_assoc, List.singleton_append]

section Members

variable {object : ObjectState ν} {members : List (List Nat × JsonTree ν)}

def addMember (object : ObjectState ν) (member : List Nat × JsonTree ν) : ObjectState ν :=
  ⟨object.members ++ [member.1], OrderedMap.putUnder member.1 member.2 object.result⟩

theorem foldl_addMember : (members.foldl addMember object).result =
    members.foldl (fun result entry => OrderedMap.putUnder entry.1 entry.2 result) object.result := by
  induction members generalizing object with
  | nil => rfl
  | cons member members ih => exact ih

theorem allowedAll_names (size : List Nat × JsonTree ν → Nat) (object : ObjectState ν) (count : Nat)
    (members : List (List Nat × JsonTree ν)) :
    AllowedAll addMember (fun object _ member => member.1 ∉ object.members) size object count members ↔
      (∀ name ∈ members.map Prod.fst, name ∉ object.members) ∧ (members.map Prod.fst).Nodup := by
  induction members generalizing object count with
  | nil => simp [AllowedAll]
  | cons member members ih =>
    rw [AllowedAll, ih, List.map_cons, List.nodup_cons]
    simp only [addMember, List.mem_append, List.mem_singleton, not_or]
    constructor
    · rintro ⟨first, apart, once⟩
      refine ⟨?_, fun again => (apart _ again).2 rfl, once⟩
      intro name named
      rcases List.mem_cons.mp named with rfl | later
      · exact first
      · exact (apart name later).1
    · rintro ⟨apart, fresh, once⟩
      refine ⟨apart _ List.mem_cons_self, ?_, once⟩
      intro name later
      exact ⟨apart name (List.mem_cons_of_mem _ later), fun same => fresh (same ▸ later)⟩

end Members

structure ReadsValue (parser : StrictJsonParser ν) (depth : Nat)
    (read : ParserState → Except Failure (JsonTree ν × ParserState)) : Prop where
  sound : ∀ {state value after}, read state = .ok (value, after) →
    ∃ text, state.rest = text ++ after.rest ∧ IsValue parser.numbers.number text value
  decides : ∀ {text rest value} (count), IsValue parser.numbers.number text value →
    NumeralEnds rest →
    Decided (parser.Fits depth count value) (read ⟨text ++ rest, count⟩)
      (value, ⟨rest, count + value.count⟩)
  ends : ∀ state, Ends (read state)

variable {parser : StrictJsonParser ν} {depth count : Nat}
  {inner : ParserState → Except Failure (JsonTree ν × ParserState)}

section Inner

variable (reads : ReadsValue parser (depth + 1) inner)
include reads

theorem parseItem_reads : ReadsElements (IsValue parser.numbers.number)
    (fun items value => items ++ [value]) (fun _ _ => True)
    (fun _ count value => parser.Fits (depth + 1) count value) JsonTree.count (parseItem inner) where
  sound := by
    intro result later state after read
    obtain ⟨⟨value, reached⟩, first, read⟩ := Transaction.except_bind_ok.mp read
    obtain ⟨text, shape, spelled⟩ := reads.sound first
    cases read
    exact ⟨text, value, shape, spelled, trivial, rfl⟩
  decides := by
    intro text rest value result count spelled numeralEnds
    exact (reads.decides count spelled numeralEnds).then_ok rfl
  ends := by
    intro result state
    apply (reads.ends state).bind
    intro found _
    exact .ok _

theorem parseMember_reads : ReadsElements (IsMember (IsValue parser.numbers.number)) addMember
    (fun object member => member.1 ∉ object.members)
    (fun object count member =>
      member.1 ∉ object.members ∧ parser.Fits (depth + 1) count member.2)
    (fun member => member.2.count) (parser.parseMember inner) where
  sound := by
    intro result later state after read
    unfold parseMember at read
    split at read
    · cases read
    obtain ⟨⟨name, afterName⟩, quoted, read⟩ := Transaction.except_bind_ok.mp read
    dsimp only at read
    split at read
    · cases read
    rename_i new
    obtain ⟨afterColon, colon, read⟩ := Transaction.except_bind_ok.mp read
    obtain ⟨⟨value, reached⟩, first, read⟩ := Transaction.except_bind_ok.mp read
    obtain ⟨key, shape, isString⟩ := parseString_sound quoted
    obtain ⟨text, inside, spelled⟩ := reads.sound first
    obtain ⟨blank, before, aroundColon⟩ := skipWhitespace_split afterName
    obtain ⟨blanks, behind, aroundValue⟩ := skipWhitespace_split afterColon
    rw [expect_ok_iff] at colon
    dsimp only at inside
    cases read
    rw [inside] at aroundValue
    rw [colon, aroundValue] at aroundColon
    refine ⟨key ++ (blank ++ ':' :: (blanks ++ text)), (name, value), ?_,
      .mk isString before behind spelled, new, rfl⟩
    rw [shape, aroundColon]
    simp
  decides := by
    intro text rest member result count spelled numeralEnds
    cases spelled with
    | @mk key units blank blanks text value isString before behind spelled =>
      have joined : key ++ (blank ++ ':' :: (blanks ++ text)) ++ rest =
          key ++ (blank ++ ':' :: (blanks ++ (text ++ rest))) := by simp
      have begins : (key ++ (blank ++ ':' :: (blanks ++ (text ++ rest)))).head? = some '"' := by
        obtain ⟨characters, rfl, _⟩ := isString
        rfl
      rw [joined, parseMember, if_neg (not_not.mpr begins)]
      apply Decided.after (parseString_complete isString _)
      dsimp only
      by_cases named : units ∈ result.members
      · rw [if_pos named]
        exact .error (fun both => both.1 named) _ _
      rw [if_neg named, skipWhitespace_before before (by decide)]
      apply Decided.after expect_same
      rw [skipWhitespace_value behind spelled]
      apply Decided.congr _ (and_iff_right named)
      exact (reads.decides count spelled numeralEnds).then_ok rfl
  ends := by
    intro result state
    unfold parseMember
    split
    · exact invalidAt_ends _ _
    apply (parser.parseString_ends state.rest).bind
    rintro ⟨name, afterName⟩ _
    dsimp only
    split
    · intro failed
      cases failed
    apply (parser.expect_ends ':' _).bind
    intro afterColon _
    apply (reads.ends _).bind
    intro found _
    exact .ok _

theorem parseArray_sound {state after : ParserState} {value : JsonTree ν} {more : List Char}
    (opened : state.rest = '[' :: more) (read : parser.parseArray inner state = .ok (value, after)) :
    ∃ text, state.rest = text ++ after.rest ∧ IsValue parser.numbers.number text value := by
  obtain ⟨⟨items, reached⟩, found, read⟩ := Transaction.except_bind_ok.mp read
  obtain ⟨text, entries, shape, listed, _, rfl⟩ := parseBracketed_sound (parseItem_reads reads) found
  cases read
  rw [opened, List.drop_one, List.tail_cons] at shape
  rw [foldl_push, List.nil_append, opened, shape]
  refine ⟨'[' :: (text ++ [']']), by simp, ?_⟩
  rcases listed with ⟨rfl, blank⟩ | separated
  · exact .emptyArray blank
  · exact .array separated

theorem parseObject_sound {state after : ParserState} {value : JsonTree ν} {more : List Char}
    (opened : state.rest = '\x7b' :: more) (read : parser.parseObject inner state = .ok (value, after)) :
    ∃ text, state.rest = text ++ after.rest ∧ IsValue parser.numbers.number text value := by
  obtain ⟨⟨object, reached⟩, found, read⟩ := Transaction.except_bind_ok.mp read
  obtain ⟨text, entries, shape, listed, fresh, rfl⟩ :=
    parseBracketed_sound (parseMember_reads reads) found
  cases read
  rw [opened, List.drop_one, List.tail_cons] at shape
  have result := JsonTree.defined_of_nodup ((allowedAll_names _ _ _ _).mp fresh).2
  rw [JsonTree.defined] at result
  rw [foldl_addMember, result, opened, shape]
  refine ⟨'\x7b' :: (text ++ ['\x7d']), by simp, ?_⟩
  rcases listed with ⟨rfl, blank⟩ | separated
  · exact .emptyObject blank
  · exact .object separated

theorem parseArray_decides {text rest : List Char} {items : List (JsonTree ν)}
    (listed : Listed (IsValue parser.numbers.number) text items) (within : parser.Within depth (count + 1)) :
    Decided (parser.Fits depth count (.array items))
      (parser.parseArray inner ⟨'[' :: (text ++ ']' :: rest), count + 1⟩)
      (.array items, ⟨rest, count + (JsonTree.array items).count⟩) := by
  have begins : ∀ text value, IsValue parser.numbers.number text value →
      ∃ c more, text = c :: more ∧ isJsonSpace c = false ∧ c ≠ ']' :=
    fun _ _ spelled => value_begins spelled
  have decided := parseBracketed_decides (parseItem_reads reads) (Or.inl rfl) begins parser []
    listed '[' rest (count + 1)
  rw [foldl_push, List.nil_append] at decided
  have sum : count + (JsonTree.array items).count = count + 1 + (items.map JsonTree.count).sum := by
    rw [JsonTree.count, JsonTree.itemsCount_eq]
    omega
  have allowed := allowedAll_fits (fun (items : List (JsonTree ν)) value => items ++ [value])
    (fun value => value) [] items within
  rw [List.map_id'] at allowed
  rw [fits_array, sum]
  apply Decided.congr _ allowed.symm
  apply decided.then_ok
  rfl

theorem parseObject_decides {text rest : List Char} {members : List (List Nat × JsonTree ν)}
    (listed : Listed (IsMember (IsValue parser.numbers.number)) text members)
    (within : parser.Within depth (count + 1)) :
    Decided (parser.Fits depth count (.object members))
      (parser.parseObject inner ⟨'\x7b' :: (text ++ '\x7d' :: rest), count + 1⟩)
      (.object members, ⟨rest, count + (JsonTree.object members).count⟩) := by
  have begins : ∀ text member, IsMember (IsValue parser.numbers.number) text member →
      ∃ c more, text = c :: more ∧ isJsonSpace c = false ∧ c ≠ '\x7d' := by
    intro text member spelled
    obtain ⟨⟨characters, rfl, _⟩, _, _, _⟩ := spelled
    exact ⟨'"', _, rfl, by decide, by decide⟩
  have decided := parseBracketed_decides (parseMember_reads reads) (Or.inr rfl) begins parser
    ⟨[], []⟩ listed '\x7b' rest (count + 1)
  have sum : count + (JsonTree.object members).count =
      count + 1 + (members.map fun member => member.2.count).sum := by
    rw [JsonTree.count, JsonTree.membersCount_eq, JsonTree.itemsCount_eq, List.map_map,
      Nat.add_comm _ 1, ← Nat.add_assoc]
    rfl
  have names := allowedAll_names (fun member => member.2.count) ⟨[], []⟩ (count + 1) members
  have fits := allowedAll_fits addMember Prod.snd ⟨[], []⟩ members within
  have both : parser.Fits depth count (.object members) ↔ AllowedAll addMember (fun object count member =>
        member.1 ∉ object.members ∧ parser.Fits (depth + 1) count member.2)
        (fun member => member.2.count) ⟨[], []⟩ (count + 1) members := by
    rw [allowedAll_and, names, fits, fits_object]
    simp
  rw [sum]
  apply Decided.congr _ both
  have read : Decided (AllowedAll addMember (fun object count member =>
        member.1 ∉ object.members ∧ parser.Fits (depth + 1) count member.2)
        (fun member => member.2.count) ⟨[], []⟩ (count + 1) members)
      (parser.parseObject inner ⟨'\x7b' :: (text ++ '\x7d' :: rest), count + 1⟩)
      (.object (members.foldl addMember ⟨[], []⟩).result,
        ⟨rest, count + 1 + (members.map fun member => member.2.count).sum⟩) := by
    apply decided.then_ok
    rfl
  apply read.result
  intro allowed
  have once := (names.mp (allowedAll_and.mp allowed).1).2
  have result := JsonTree.defined_of_nodup once
  rw [JsonTree.defined] at result
  rw [foldl_addMember, result]

theorem parseArray_ends (state : ParserState) : Ends (parser.parseArray inner state) := by
  apply (parseBracketed_ends (parseItem_reads reads) [] state).bind
  intro found _
  exact .ok _

theorem parseObject_ends (state : ParserState) : Ends (parser.parseObject inner state) := by
  apply (parseBracketed_ends (parseMember_reads reads) ⟨[], []⟩ state).bind
  intro found _
  exact .ok _

end Inner

section Scalars

variable {parse : List Char → Except Failure (JsonTree ν × List Char)} {rest text : List Char}
  {value : JsonTree ν}

theorem scalar_ends (ends : ∀ rest, Ends (parse rest)) (state : ParserState) : Ends (scalar parse state) := by
  apply (ends state.rest).bind
  intro found _
  exact .ok _

theorem scalar_sound {state after : ParserState} (read : scalar parse state = .ok (value, after))
    (sound : ∀ {left}, parse state.rest = .ok (value, left) →
      ∃ text, state.rest = text ++ left ∧ IsValue parser.numbers.number text value) :
    ∃ text, state.rest = text ++ after.rest ∧ IsValue parser.numbers.number text value := by
  obtain ⟨⟨found, left⟩, parsed, read⟩ := Transaction.except_bind_ok.mp read
  cases read
  exact sound parsed

theorem literal_sound {literal : List Char} {state after : ParserState} {found : JsonTree ν}
    (read : scalar (parser.parseLiteral literal value) state = .ok (found, after))
    (spelled : IsValue parser.numbers.number literal value) :
    ∃ text, state.rest = text ++ after.rest ∧ IsValue parser.numbers.number text found := by
  apply scalar_sound read
  intro left parsed
  obtain ⟨shape, rfl⟩ := parseLiteral_sound parsed
  exact ⟨literal, shape, spelled⟩

theorem scalar_decides (within : parser.Within depth (count + 1)) (alone : value.depth = 0) (single : value.count = 1)
    (parsed : Decided (value.Strict parser.numbers.isFinite) (parse (text ++ rest)) (value, rest)) :
    Decided (parser.Fits depth count value) (scalar parse ⟨text ++ rest, count + 1⟩)
      (value, ⟨rest, count + value.count⟩) := by
  have same : parser.Fits depth count value ↔ value.Strict parser.numbers.isFinite := by
    rw [Fits, alone, single]
    exact ⟨fun fits => fits.1, fun strict => ⟨strict, within⟩⟩
  rw [single]
  apply Decided.congr _ same
  exact parsed.then_ok rfl

end Scalars

section Chosen

theorem enclosed (opener close : Char) (text rest : List Char) :
    opener :: (text ++ [close]) ++ rest = opener :: (text ++ close :: rest) := by
  simp

variable (reads : ReadsValue parser (depth + 1) inner)
include reads

theorem parseChosen_sound {state after : ParserState} {value : JsonTree ν}
    (read : parser.parseChosen inner state = .ok (value, after)) :
    ∃ text, state.rest = text ++ after.rest ∧ IsValue parser.numbers.number text value := by
  obtain ⟨rest, valueCount⟩ := state
  cases rest with
  | nil => cases read
  | cons c rest =>
    rw [parseChosen, List.head?_cons] at read
    dsimp only at read
    split at read
    · rename_i same
      subst same
      exact parseObject_sound reads rfl read
    split at read
    · rename_i same
      subst same
      exact parseArray_sound reads rfl read
    split at read
    · apply scalar_sound read
      intro left parsed
      obtain ⟨⟨units, after⟩, quoted, parsed⟩ := Transaction.except_bind_ok.mp parsed
      obtain ⟨text, shape, spelled⟩ := parseString_sound quoted
      cases parsed
      exact ⟨text, shape, .string spelled⟩
    split at read
    · exact literal_sound read .true
    split at read
    · exact literal_sound read .false
    split at read
    · exact literal_sound read .null
    split at read
    · apply scalar_sound read
      intro left parsed
      obtain ⟨text, shape, numeral, rfl⟩ := parseNumber_sound parsed
      exact ⟨text, shape, .number numeral⟩
    · cases read

theorem parseChosen_ends (state : ParserState) : Ends (parser.parseChosen inner state) := by
  unfold parseChosen
  split
  · exact invalidAt_ends _ _
  split
  · exact parseObject_ends reads state
  split
  · exact parseArray_ends reads state
  split
  · apply scalar_ends
    intro rest
    apply (parser.parseString_ends rest).bind
    intro found _
    exact .ok _
  split
  · exact scalar_ends (parser.parseLiteral_ends _ _) state
  split
  · exact scalar_ends (parser.parseLiteral_ends _ _) state
  split
  · exact scalar_ends (parser.parseLiteral_ends _ _) state
  split
  · exact scalar_ends parser.parseNumber_ends state
  · exact invalidAt_ends _ _

omit reads in
theorem literal_decides {value : JsonTree ν} (literal rest : List Char)
    (within : parser.Within depth (count + 1)) (alone : value.depth = 0) (single : value.count = 1)
    (strict : value.Strict parser.numbers.isFinite) :
    Decided (parser.Fits depth count value) (scalar (parser.parseLiteral literal value) ⟨literal ++ rest, count + 1⟩)
      (value, ⟨rest, count + value.count⟩) := by
  apply scalar_decides within alone single
  rw [parseLiteral_complete]
  exact .ok strict _

omit reads in
theorem numeral_decides {text rest : List Char} (within : parser.Within depth (count + 1))
    (numeral : IsNumeral text) (ends : NumeralEnds rest) :
    Decided (parser.Fits depth count (.number (parser.numbers.number text)))
      (scalar parser.parseNumber ⟨text ++ rest, count + 1⟩)
      (.number (parser.numbers.number text), ⟨rest, count + 1⟩) := by
  apply scalar_decides within rfl rfl
  rw [parseNumber_complete numeral ends]
  split
  · rename_i finite
    exact .ok finite _
  · rename_i infinite
    exact .error infinite _ _

omit reads in
theorem chosen_number {c : Char} {more : List Char} (begins : c = '-' ∨ c.isDigit = true) :
    parser.parseChosen inner ⟨c :: more, count⟩ = scalar parser.parseNumber ⟨c :: more, count⟩ := by
  have others : c ≠ '\x7b' ∧ c ≠ '[' ∧ c ≠ '"' ∧ c ≠ 't' ∧ c ≠ 'f' ∧ c ≠ 'n' := by
    refine ⟨?_, ?_, ?_, ?_, ?_, ?_⟩ <;> rintro rfl <;> revert begins <;> decide
  obtain ⟨noObject, noArray, noString, noTrue, noFalse, noNull⟩ := others
  rw [parseChosen, List.head?_cons]
  dsimp only
  rw [if_neg noObject, if_neg noArray, if_neg noString, if_neg noTrue, if_neg noFalse, if_neg noNull, if_pos begins]

theorem parseChosen_decides {text rest : List Char} {value : JsonTree ν} (within : parser.Within depth (count + 1))
    (spelled : IsValue parser.numbers.number text value) (ends : NumeralEnds rest) :
    Decided (parser.Fits depth count value) (parser.parseChosen inner ⟨text ++ rest, count + 1⟩)
      (value, ⟨rest, count + value.count⟩) := by
  cases spelled with
  | null => exact literal_decides _ rest within rfl rfl trivial
  | true => exact literal_decides _ rest within rfl rfl trivial
  | false => exact literal_decides _ rest within rfl rfl trivial
  | number numeral =>
    obtain ⟨c, more, rfl, begins⟩ := numeral_begins numeral
    rw [List.cons_append, chosen_number begins]
    exact numeral_decides within numeral ends
  | @string text units quoted =>
    have read : Decided (parser.Fits depth count (.string units))
        (scalar parser.stringValue ⟨text ++ rest, count + 1⟩)
        (.string units, ⟨rest, count + 1⟩) := by
      apply scalar_decides within rfl rfl
      rw [stringValue]
      apply Decided.after (parseString_complete quoted rest)
      exact .ok trivial _
    obtain ⟨characters, rfl, _⟩ := quoted
    exact read
  | emptyArray blank =>
    rw [enclosed]
    exact parseArray_decides reads (Or.inl ⟨rfl, blank⟩) within
  | array separated =>
    rw [enclosed]
    exact parseArray_decides reads (Or.inr separated) within
  | emptyObject blank =>
    rw [enclosed]
    exact parseObject_decides reads (Or.inl ⟨rfl, blank⟩) within
  | object separated =>
    rw [enclosed]
    exact parseObject_decides reads (Or.inr separated) within

end Chosen

theorem parseValue_step (inside : depth ≤ parser.maxDepth →
      ReadsValue parser (depth + 1) fun state => parser.parseValue (depth + 1) state) :
    ReadsValue parser depth (parser.parseValue depth) where
  sound := by
    intro state value after read
    rw [parseValue] at read
    split at read
    · cases read
    rename_i shallow
    dsimp only at read
    split at read
    · cases read
    obtain ⟨text, shape, spelled⟩ := parseChosen_sound (inside (Nat.le_of_not_lt shallow)) read
    exact ⟨text, shape, spelled⟩
  decides := by
    intro text rest value count spelled ends
    rw [parseValue]
    by_cases deep : parser.maxDepth < depth
    · rw [dif_pos deep]
      exact .error (fun fits => Nat.not_le_of_lt deep fits.within.1) _ _
    rw [dif_neg deep]
    dsimp only
    by_cases many : parser.maxValues < count + 1
    · rw [if_pos many]
      exact .error (fun fits => Nat.not_le_of_lt many fits.within.2) _ _
    rw [if_neg many]
    exact parseChosen_decides (inside (Nat.le_of_not_lt deep))
      ⟨Nat.le_of_not_lt deep, Nat.le_of_not_lt many⟩ spelled ends
  ends := by
    intro state
    rw [parseValue]
    split
    · exact invalidAt_ends _ _
    rename_i shallow
    dsimp only
    split
    · exact invalidAt_ends _ _
    · exact parseChosen_ends (inside (Nat.le_of_not_lt shallow)) _

/-- By induction on the levels that are left. -/
theorem parseValue_reads (levels : Nat) (left : parser.maxDepth + 1 ≤ depth + levels) :
    ReadsValue parser depth (parser.parseValue depth) := by
  induction levels generalizing depth with
  | zero =>
    apply parseValue_step
    intro shallow
    omega
  | succ levels ih =>
    apply parseValue_step
    intro _
    exact ih (by omega)

variable (parser) in
theorem parseValue_top : ReadsValue parser 0 (parser.parseValue 0) :=
  parseValue_reads (parser.maxDepth + 1) (by omega)

theorem skipWhitespace_all {blank : List Char} (spaces : IsBlank blank) : skipWhitespace blank = [] := by
  have skipped : skipWhitespace (blank ++ []) = [] :=
    skipWhitespace_blank spaces (fun _ absent => by cases absent)
  rwa [List.append_nil] at skipped

theorem numeralEnds_blank {blank : List Char} (spaces : IsBlank blank) : NumeralEnds blank := by
  have ends : NumeralEnds (blank ++ []) :=
    numeralEnds_of_blank spaces (fun _ absent => by cases absent)
  rwa [List.append_nil] at ends

theorem parse_ends (parser : StrictJsonParser ν) : Ends parser.parse := by
  apply ((parseValue_top parser).ends _).bind
  rintro ⟨value, state⟩ _
  dsimp only
  split
  · exact .ok _
  · exact invalidAt_ends _ _

theorem parse_decides {value : JsonTree ν} (document : IsDocument parser.numbers.number parser.source value) :
    Decided (parser.Fits 0 0 value) parser.parse value := by
  obtain ⟨before, inner, after, shape, spaces, spelled, blanks⟩ := document
  have read := (parseValue_top parser).decides 0 spelled (numeralEnds_blank blanks)
  rw [parse, shape, skipWhitespace_value spaces spelled]
  apply read.then_ok
  simp only [skipWhitespace_all blanks, if_true]
  rfl

theorem parse_sound {value : JsonTree ν} (read : parser.parse = .ok value) :
    IsDocument parser.numbers.number parser.source value := by
  obtain ⟨⟨found, state⟩, first, read⟩ := Transaction.except_bind_ok.mp read
  obtain ⟨text, shape, spelled⟩ := (parseValue_top parser).sound first
  obtain ⟨before, spaces, skipped⟩ := skipWhitespace_split parser.source
  obtain ⟨after, blanks, ended⟩ := skipWhitespace_split state.rest
  dsimp only at read shape
  split at read
  · rename_i all
    cases read
    rw [all, List.append_nil] at ended
    exact ⟨before, text, after, by rw [skipped, shape, ended], spaces, spelled, blanks⟩
  · cases read

theorem parse_ok_iff {value : JsonTree ν} :
    parser.parse = .ok value ↔ IsDocument parser.numbers.number parser.source value ∧ parser.Fits 0 0 value := by
  constructor
  · intro read
    have document := parse_sound read
    exact ⟨document, ((parse_decides document).of_ok read).1⟩
  · rintro ⟨document, fits⟩
    exact (parse_decides document).1 fits

theorem parse_unique {value written : JsonTree ν} (read : parser.parse = .ok value)
    (document : IsDocument parser.numbers.number parser.source written) : value = written :=
  ((parse_decides document).of_ok read).2

end StrictJsonParser

section Bodies

variable {ν : Type} {numbers : NumberReader ν} {limits : Limits} {bytes : List Nat}
  {value : JsonTree ν}

/-- A value that the limits of a body admit. -/
structure Admitted (numbers : NumberReader ν) (limits : Limits) (value : JsonTree ν) : Prop where
  strict : value.Strict numbers.isFinite
  depth : value.depth ≤ limits.depth
  values : value.count ≤ limits.values

theorem fits_iff_admitted (source : List Char) :
    StrictJsonParser.Fits ⟨numbers, source, limits.depth, limits.values⟩ 0 0 value ↔
      Admitted numbers limits value := by
  rw [StrictJsonParser.Fits, Nat.zero_add, Nat.zero_add]
  constructor
  · rintro ⟨strict, depth, values⟩
    exact ⟨strict, depth, values⟩
  · rintro ⟨strict, depth, values⟩
    exact ⟨strict, depth, values⟩

theorem parse_body {text : List Char} (small : (encodeUtf8 text).length ≤ limits.bytes) :
    parseStrictJsonBytes numbers limits (encodeUtf8 text) =
      StrictJsonParser.parse ⟨numbers, dropMark text, limits.depth, limits.values⟩ := by
  rw [parseStrictJsonBytes, if_neg (Nat.not_lt_of_le small), decodeFatal_encodeUtf8]

theorem body_of_ok (read : parseStrictJsonBytes numbers limits bytes = .ok value) :
    ∃ text, bytes = encodeUtf8 text ∧ (encodeUtf8 text).length ≤ limits.bytes := by
  unfold parseStrictJsonBytes at read
  split at read
  · cases read
  rename_i small
  split at read
  · cases read
  rename_i source decoded
  obtain ⟨text, rfl, _⟩ := decodeFatal_eq_some_iff.mp decoded
  exact ⟨text, rfl, Nat.le_of_not_lt small⟩

end Bodies

/-- The parser accepts exactly the texts of the grammar, but for one mark at the beginning, that
have finite numbers and no name twice and are within the limits; it gives what `JSON.parse` gives,
and nothing else; and its loops end. -/
theorem accepts_the_strict_texts {ν : Type} (numbers : NumberReader ν) (limits : Limits) (bytes : List Nat) :
    (∀ value, parseStrictJsonBytes numbers limits bytes = .ok value ↔
      ∃ text, bytes = encodeUtf8 text ∧ bytes.length ≤ limits.bytes ∧
        IsDocument numbers.number (dropMark text) value ∧ Admitted numbers limits value) ∧
    (∀ value text, parseStrictJsonBytes numbers limits bytes = .ok value → bytes = encodeUtf8 text →
        ∀ parsed, JsonParses numbers.number (dropMark text) parsed ↔ parsed = value) ∧
    parseStrictJsonBytes numbers limits bytes ≠ .error .exhausted := by
  refine ⟨?_, ?_, ?_⟩
  · intro value
    constructor
    · intro read
      obtain ⟨text, rfl, small⟩ := body_of_ok read
      rw [parse_body small, StrictJsonParser.parse_ok_iff, fits_iff_admitted] at read
      exact ⟨text, rfl, small, read.1, read.2⟩
    · rintro ⟨text, rfl, small, document, admitted⟩
      rw [parse_body small, StrictJsonParser.parse_ok_iff, fits_iff_admitted]
      exact ⟨document, admitted⟩
  · intro value text read same parsed
    obtain ⟨source, encoded, small⟩ := body_of_ok read
    have equal := encodeUtf8_injective (encoded.symm.trans same)
    subst equal
    subst encoded
    rw [parse_body small] at read
    obtain ⟨document, fits⟩ := StrictJsonParser.parse_ok_iff.mp read
    have kept : value.parsed = value := JsonTree.parsed_of_strict fits.1
    constructor
    · rintro ⟨written, spelled, rfl⟩
      rw [← StrictJsonParser.parse_unique read spelled, kept]
    · rintro rfl
      exact ⟨_, document, kept.symm⟩
  · intro failed
    unfold parseStrictJsonBytes at failed
    split at failed
    · cases failed
    split at failed
    · cases failed
    · exact StrictJsonParser.parse_ends _ failed

/-- A reader of numerals that keeps their text. -/
def plainNumbers : NumberReader (List Char) := ⟨id, fun _ => true⟩

/-- A mark and an empty object, which is no text of the grammar. -/
theorem mark_before_an_object :
    parseStrictJsonBytes plainNumbers ⟨none, none, none⟩ (encodeUtf8 ['\uFEFF', '\x7b', '\x7d']) =
      .ok (.object []) ∧ ¬∃ value, IsDocument plainNumbers.number ['\uFEFF', '\x7b', '\x7d'] value := by
  constructor
  · have document : IsDocument plainNumbers.number ['\x7b', '\x7d'] (.object []) :=
      ⟨[], ['\x7b', '\x7d'], [], rfl, isBlank_nil, .emptyObject isBlank_nil, isBlank_nil⟩
    have small : (encodeUtf8 ['\uFEFF', '\x7b', '\x7d']).length ≤ Limits.bytes ⟨none, none, none⟩ := by
      decide
    have admitted : Admitted plainNumbers ⟨none, none, none⟩ (.object []) :=
      ⟨⟨List.nodup_nil, trivial⟩, by decide, by decide⟩
    rw [parse_body small, StrictJsonParser.parse_ok_iff, fits_iff_admitted]
    exact ⟨document, admitted⟩
  · rintro ⟨value, before, inner, after, shape, spaces, spelled, _⟩
    obtain ⟨c, more, rfl, first⟩ := value_first spelled
    cases before with
    | nil =>
      have mark := (List.cons.inj shape).1
      rw [← mark] at first
      exact absurd first (by decide)
    | cons space before =>
      have blank := spaces space List.mem_cons_self
      rw [← (List.cons.inj shape).1] at blank
      exact absurd blank (by decide)

end Lobu.StrictJson
