import Lobu.Proxy.IpLiteral

namespace Lobu.Proxy

open Lobu.Foundation

/-! # Blocking depends on the address

The literal is a spelling of a number, and the answer of both checks is a function of
that number as long as `::ffff:` stands in front of the IPv4-mapped addresses only.
-/

theorem stripColon_double (front : List Char) : stripColon (front ++ [':', ':']) = front ++ [':', ':'] := by
  have double : [':', ':'].isSuffixOf (front ++ [':', ':']) = true :=
    List.isSuffixOf_iff_suffix.mpr (List.suffix_append _ _)
  rw [stripColon, double]
  simp

theorem stripColon_single {front : List Char} (ended : front.getLast? ≠ some ':') :
    stripColon (front ++ [':']) = front := by
  have single : [':'].isSuffixOf (front ++ [':']) = true :=
    List.isSuffixOf_iff_suffix.mpr (List.suffix_append _ _)
  have double : [':', ':'].isSuffixOf (front ++ [':']) = false := by
    rw [Bool.eq_false_iff, ne_eq, List.isSuffixOf_iff_suffix]
    rintro ⟨before, same⟩
    have both : before ++ [':'] ++ [':'] = front ++ [':'] := by simpa using same
    rw [← List.append_cancel_right both, List.getLast?_concat] at ended
    contradiction
  rw [stripColon, single, double]
  simp

section Expanding

variable {text : Ipv6Text} (formed : text.WellFormed)
include formed

theorem cutIpv4Suffix_none (plain : text.quad = none) : cutIpv4Suffix text.render = (text.render, []) := by
  have dotless : '.' ∉ text.render := by
    have groups : ∀ group ∈ text.groups, '.' ∉ group :=
      fun group member => group_not_mem (formed.groups group member) (by decide)
    simp only [Ipv6Text.groups, List.mem_append] at groups
    have front := not_mem_join (by decide) fun group member => groups group (.inl member)
    rw [Ipv6Text.render, plain, Option.toList_none]
    split
    · rwa [List.append_nil]
    · rename_i right halves
      rw [halves, Option.getD_some] at groups
      have back := not_mem_join (by decide) fun group member => groups group (.inr member)
      simp [front, back]
  rw [cutIpv4Suffix, lastIndexOf, if_neg dotless]

theorem render_quad {quad : List Char} (tail : text.quad = some quad) :
    ∃ front, text.render = front ++ ':' :: quad ∧
      stripColon (front ++ [':']) = { text with quad := none }.render := by
  obtain ⟨left, right, _⟩ := text
  cases tail
  cases right with
  | none =>
    have some : left ≠ [] := by
      rintro rfl
      exact absurd (formed.whole rfl) (by simp [Ipv6Text.written, Ipv6Text.groups])
    refine ⟨join left, join_append_singleton some quad, ?_⟩
    rw [stripColon_single (join_getLast formed.left_fields)]
    simp [Ipv6Text.render]
  | some right =>
    by_cases nonempty : right = []
    · subst nonempty
      refine ⟨join left ++ [':'], by simp [Ipv6Text.render, join], ?_⟩
      rw [List.append_assoc]
      exact stripColon_double (join left)
    · have plain : Fields right := formed.right_fields rfl
      refine ⟨join left ++ ':' :: ':' :: join right, ?_, ?_⟩
      · simp [Ipv6Text.render, join_append_singleton nonempty]
      · rw [stripColon_single]
        · simp [Ipv6Text.render]
        · have last := join_getLast plain
          cases ended : (join right).getLast? with
          | none => exact absurd (List.getLast?_eq_none_iff.mp ended) (join_ne_nil plain nonempty)
          | some c =>
            rw [ended] at last
            simpa [List.getLast?_append, List.getLast?_cons, ended] using last

theorem cutIpv4Suffix_some {quad : List Char} (tail : text.quad = some quad) :
    cutIpv4Suffix text.render = ({ text with quad := none }.render, Ipv6Text.quadHextets text.quad) := by
  obtain ⟨front, shape, stripped⟩ := render_quad formed tail
  obtain ⟨dot, colonless, _⟩ := formed.dotted quad tail
  obtain ⟨before, after, dotted, last⟩ := exists_last dot
  obtain ⟨octets, parsed⟩ := Option.isSome_iff_exists.mp (formed.quad quad tail)
  obtain ⟨values, four, bytes, _⟩ := parseIpv4_sound parsed
  have dotIndex : lastIndexOf '.' text.render = some (front ++ ':' :: before).length := by
    rw [shape, dotted, ← List.cons_append, ← List.append_assoc]
    exact lastIndexOf_append _ last
  have upToDot : text.render.take ((front ++ ':' :: before).length + 1) = front ++ ':' :: (before ++ ['.']) := by
    have cut : text.render = (front ++ ':' :: (before ++ ['.'])) ++ after := by
      rw [shape, dotted]
      simp
    rw [cut]
    apply List.take_left'
    simp only [List.length_append, List.length_cons, List.length_nil]
    omega
  have colonIndex : lastIndexOf ':' (front ++ ':' :: (before ++ ['.'])) = some front.length := by
    apply lastIndexOf_append
    intro colon
    apply colonless
    rw [dotted]
    grind
  have upToColon : text.render.take (front.length + 1) = front ++ [':'] := by
    rw [shape, List.append_cons]
    exact List.take_left' (by simp)
  have afterColon : text.render.drop (front.length + 1) = quad := by
    rw [shape, List.append_cons]
    exact List.drop_left' (by simp)
  match octets, four with
  | [a, b, c, d], _ =>
    have second := bytes b (by simp)
    have fourth := bytes d (by simp)
    simp only [cutIpv4Suffix, dotIndex, upToDot, colonIndex, Option.elim_some, upToColon,
      afterColon, values, stripped, tail, Ipv6Text.quadHextets, Option.bind_some, parsed]
    simp only [List.getD_cons_zero, List.getD_cons_succ]
    rw [← Nat.shiftLeft_add_eq_or_of_lt (i := 8) second,
      ← Nat.shiftLeft_add_eq_or_of_lt (i := 8) fourth, Nat.shiftLeft_eq, Nat.shiftLeft_eq]

theorem cutIpv4Suffix_render : cutIpv4Suffix text.render =
    ({ text with quad := none }.render, Ipv6Text.quadHextets text.quad) := by
  obtain ⟨left, right, quad⟩ := text
  cases quad with
  | none => exact cutIpv4Suffix_none formed rfl
  | some quad => exact cutIpv4Suffix_some formed rfl

/-- Without its dotted tail the text is cut at its `::`. -/
theorem splitDouble_render : splitDouble { text with quad := none }.render =
    join text.left :: (text.right.map join).toList := by
  have alone : ∀ fields : List (List Char), Fields fields → splitDouble (join fields) = [join fields] := by
    intro fields plain
    simpa [splitDouble] using splitDouble_join plain []
  cases halves : text.right with
  | none => simpa [Ipv6Text.render, halves] using alone text.left formed.left_fields
  | some right =>
    have back := alone right (formed.right_fields halves)
    simp only [Ipv6Text.render, Option.toList_none, List.append_nil]
    rw [splitDouble_join formed.left_fields, splitDouble, back]
    simp

theorem expandIpv6ToHextets_render : expandIpv6ToHextets text.render = text.hextets := by
  have cut := cutIpv4Suffix_render formed.lower
  have halves := splitDouble_render formed.lower
  have tail := (quadHextets_spec formed.lower.quad).1
  rw [expandIpv6ToHextets, ← formed.render_lower, cut, halves, ← Ipv6Text.lower_hextets]
  have written : text.lower.written = text.lower.left.length +
      (text.lower.right.getD []).length + (Ipv6Text.quadHextets text.lower.quad).length := by
    rw [tail, Ipv6Text.written, Ipv6Text.groups, List.length_append]
  rw [Ipv6Text.hextets, written, Nat.add_assoc, Nat.sub_add_eq]
  cases right : text.lower.right with
  | none => simp [splitColon_join formed.lower.left_fields]
  | some groups =>
    simp [splitColon_join formed.lower.left_fields, splitColon_join (formed.lower.right_fields right)]

end Expanding

theorem parse_hextetsToIpv4 {high low : Nat} (highSmall : high < 65536)
    (lowSmall : low < 65536) : ipv4Value (hextetsToIpv4 high low) = some (high * 65536 + low) := by
  have masks : ∀ value, value &&& 0xff = value % 256 := fun value =>
    Nat.and_two_pow_sub_one_eq_mod value 8
  have shifts : ∀ value, value >>> 8 = value / 256 := fun value =>
    Nat.shiftRight_eq_div_pow value 8
  have read : parseIpv4 (hextetsToIpv4 high low) =
      some [high / 256 % 256, high % 256, low / 256 % 256, low % 256] := by
    rw [hextetsToIpv4, masks, masks, masks, masks, shifts, shifts]
    apply parse_renderIpv4
    · rfl
    · intro octet member
      simp only [List.mem_cons, List.not_mem_nil, or_false] at member
      omega
  rw [ipv4Value, read, Option.map_some]
  have value : digitsValue 256 [high / 256 % 256, high % 256, low / 256 % 256, low % 256] = high * 65536 + low := by
    simp only [digitsValue, List.foldl_cons, List.foldl_nil]
    omega
  rw [value]

/-- The leading 96 bits of the addresses `::ffff:a.b.c.d`. -/
def mappedBits : Nat :=
  0xffff

/-- The leading 96 bits of the addresses `64:ff9b::a.b.c.d`. -/
def nat64Bits : Nat :=
  0x64ff9b * 2 ^ 64

theorem parseHextet_group {group : List Char} (valid : isGroup group = true) :
    parseHextet group = some (hexValue group) := by
  have digits : group.takeWhile isHexDigit = group :=
    List.takeWhile_eq_self_iff.mpr (List.all_eq_true.mp (group_digits valid))
  rw [parseHextet, digits, if_neg (group_ne_nil valid)]

section Mapped

variable {text : Ipv6Text} (formed : text.WellFormed) {mapped : List Char}

include formed

/-- What stands behind a leading `::ffff:`. -/
theorem mapped_fields (begins : text.render = mappedPrefix ++ mapped) :
    text.left = [] ∧ ∃ rest, text.right = some ("ffff".toList :: rest) ∧
      rest ++ text.quad.toList = mapped.splitOn ':' := by
  have shape : mappedPrefix = ':' :: ':' :: ("ffff".toList ++ [':']) := by decide
  have notFirst : ∀ {fields : List (List Char)} {rest more : List Char}, Fields fields →
      fields ≠ [] → join fields ++ rest ≠ ':' :: more := by
    intro fields rest more plain nonempty same
    cases fields with
    | nil => contradiction
    | cons field fields =>
      obtain ⟨c, tail, other, head⟩ := join_cons plain
      rw [head, List.cons_append, List.cons.injEq] at same
      exact other same.1
  obtain ⟨left, right, quad⟩ := text
  rw [shape] at begins
  cases right with
  | none =>
    have nonempty : left ++ quad.toList ≠ [] := by
      have whole := formed.whole rfl
      intro nothing
      obtain ⟨rfl, tail⟩ := List.append_eq_nil_iff.mp nothing
      simp [Ipv6Text.written, Ipv6Text.groups, tail] at whole
    have fields := formed.tail_fields left (by simp [Ipv6Text.groups])
    have start : join (left ++ quad.toList) ++ [] = ':' :: ':' :: ("ffff".toList ++ ':' :: mapped) :=
      by simpa [Ipv6Text.render] using begins
    exact absurd start (notFirst fields nonempty)
  | some right =>
    have nothing : left = [] := by
      by_contra nonempty
      exact notFirst formed.left_fields nonempty begins
    subst nothing
    have tail : join (right ++ quad.toList) = "ffff".toList ++ ':' :: mapped := by
      simpa [Ipv6Text.render, join] using begins
    have fields := splitColon_join (formed.tail_fields right (by simp [Ipv6Text.groups]))
    rw [tail, splitColon, if_neg (by simp), List.splitOn_append_cons_self_of_not_mem (by decide)] at fields
    refine ⟨rfl, ?_⟩
    cases right with
    | nil =>
      have length := congrArg List.length fields
      have more := List.length_pos_iff.mpr (List.splitOn_ne_nil ':' mapped)
      cases quad with
      | none => simp at length
      | some quad =>
        simp at length
    | cons group rest =>
      rw [List.cons_append, List.cons.injEq] at fields
      exact ⟨rest, by rw [fields.1], fields.2.symm⟩

/-- An address behind `::ffff:` is IPv4-mapped when two groups follow. -/
theorem mapped_value {rest : List (List Char)} (front : text.left = [])
    (behind : text.right = some ("ffff".toList :: rest)) :
    (text.value / 2 ^ 32 = mappedBits ↔ rest.length + 2 * text.quad.toList.length = 2) ∧
      (rest.length + 2 * text.quad.toList.length = 2 → text.value % 2 ^ 32 =
        digitsValue 65536 (rest.map hexValue ++ Ipv6Text.quadHextets text.quad)) := by
  have tailLength := (quadHextets_spec formed.quad).1
  have short := formed.shortened (by rw [behind]; rfl)
  have small := formed.hextets_spec.2
  have ffff : hexValue "ffff".toList = 65535 := by decide
  rw [Ipv6Text.written, Ipv6Text.groups, front, behind] at short
  rw [Ipv6Text.value, Ipv6Text.hextets, front, behind] at *
  simp only [List.map_nil, List.nil_append, Option.getD_some, List.map_cons, ffff,
    List.append_assoc, List.cons_append, List.length_cons] at short small ⊢
  rw [digitsValue_zeros, digitsValue_cons]
  generalize digits : rest.map hexValue ++ Ipv6Text.quadHextets text.quad = tail at small ⊢
  have length : tail.length = rest.length + 2 * text.quad.toList.length := by
    rw [← digits, List.length_append, List.length_map, tailLength]
  have below : digitsValue 65536 tail < 65536 ^ tail.length :=
    digitsValue_lt fun digit member => small digit (by simp [member])
  rw [← length, mappedBits]
  generalize digitsValue 65536 tail = low at below ⊢
  generalize tail.length = count at below ⊢
  have counts : count = 0 ∨ count = 1 ∨ count = 2 ∨ 3 ≤ count := by omega
  rcases counts with rfl | rfl | rfl | many
  · omega
  · omega
  · omega
  · have wide : 65536 ^ 3 ≤ 65536 ^ count := Nat.pow_le_pow_right (by decide) many
    omega

theorem normalizeMapped_spec (begins : text.render = mappedPrefix ++ mapped) :
    if text.value / 2 ^ 32 = mappedBits then
      ∃ literal, normalizeMapped mapped = .ipv4 literal ∧
        ipv4Value literal = some (text.value % 2 ^ 32)
    else normalizeMapped mapped = .invalid := by
  obtain ⟨front, rest, behind, fields⟩ := mapped_fields formed begins
  obtain ⟨isMapped, embedded⟩ := mapped_value formed front behind
  have whole : [':'].intercalate (mapped.splitOn ':') = mapped := List.intercalate_splitOn ':'
  have valid : ∀ group ∈ rest, isGroup group = true := by
    intro group member
    apply formed.groups
    simp [Ipv6Text.groups, behind, member]
  rw [← fields] at whole
  cases tail : text.quad with
  | none =>
    rw [tail, Option.toList_none, List.append_nil] at fields whole
    have dotless : '.' ∉ mapped := by
      rw [← whole]
      exact not_mem_join (by decide) fun group member =>
        group_not_mem (valid group member) (by decide)
    rw [normalizeMapped, if_neg dotless, ← fields]
    rw [tail] at isMapped embedded
    by_cases pair : rest.length = 2
    · obtain ⟨first, second, rfl⟩ := List.length_eq_two.mp pair
      have firstValid := valid first (by simp)
      have secondValid := valid second (by simp)
      have high := group_value_lt firstValid
      have low := group_value_lt secondValid
      rw [if_pos (isMapped.mpr rfl)]
      refine ⟨hextetsToIpv4 (hexValue first) (hexValue second), ?_, ?_⟩
      · simp only [parseHextet_group firstValid, parseHextet_group secondValid]
        rw [if_neg (by omega)]
      · rw [parse_hextetsToIpv4 high low, embedded rfl]
        simp [digitsValue, Ipv6Text.quadHextets]
    · rw [if_neg (fun wide => pair (isMapped.mp wide))]
      split
      · exact absurd rfl pair
      · rfl
  | some quad =>
    rw [tail, Option.toList_some] at fields whole
    obtain ⟨dot, _, _⟩ := formed.dotted quad tail
    have parsed := formed.quad quad tail
    rw [tail] at isMapped embedded
    by_cases alone : rest = []
    · subst alone
      rw [List.nil_append, List.intercalate_singleton] at whole
      subst whole
      rw [if_pos (isMapped.mpr rfl), normalizeMapped, if_pos dot, isIP, if_pos parsed, if_pos rfl, embedded rfl]
      exact ⟨quad, rfl, quadHextets_value parsed⟩
    · have shape : mapped = join rest ++ ':' :: quad :=
        whole.symm.trans (join_append_singleton alone quad)
      have notIpv4 : parseIpv4 mapped = none := parseIpv4_colon (by simp [shape])
      have notMapped : text.value / 2 ^ 32 ≠ mappedBits := by
        intro wide
        have count := isMapped.mp wide
        have some := List.length_pos_iff.mpr alone
        simp only [Option.toList_some, List.length_singleton] at count
        omega
      have notFour : isIP mapped ≠ 4 := by
        rw [isIP, notIpv4]
        simp only [Option.isSome_none, Bool.false_eq_true, if_false]
        split <;> decide
      rw [if_neg notMapped, normalizeMapped, if_pos (by simp [shape, dot]), if_neg notFour]

end Mapped

theorem nat64_value {text : Ipv6Text} (formed : text.WellFormed) :
    (text.hextets.take 6 = [0x64, 0xff9b, 0, 0, 0, 0] ↔ text.value / 2 ^ 32 = nat64Bits) ∧
      ipv4Value (hextetsToIpv4 (text.hextets.getD 6 0) (text.hextets.getD 7 0)) = some (text.value % 2 ^ 32) := by
  obtain ⟨eight, small⟩ := formed.hextets_spec
  rw [Ipv6Text.value]
  generalize text.hextets = hextets at eight small ⊢
  match hextets, eight with
  | [a, b, c, d, e, f, high, low], _ =>
    simp only [List.mem_cons, List.not_mem_nil, or_false, forall_eq_or_imp, forall_eq] at small
    obtain ⟨_, _, _, _, _, _, highSmall, lowSmall⟩ := small
    have value : digitsValue 65536 [a, b, c, d, e, f, high, low] =
        digitsValue 65536 [a, b, c, d, e, f] * 2 ^ 32 + (high * 65536 + low) := by
      simp only [digitsValue, List.foldl_cons, List.foldl_nil]
      omega
    have quotient : digitsValue 65536 [a, b, c, d, e, f, high, low] / 2 ^ 32 =
        digitsValue 65536 [a, b, c, d, e, f] := by omega
    constructor
    · rw [quotient, nat64Bits]
      simp only [List.take_succ_cons, List.take_zero, List.cons.injEq, and_true, digitsValue,
        List.foldl_cons, List.foldl_nil]
      omega
    · show ipv4Value (hextetsToIpv4 high low) = _
      rw [parse_hextetsToIpv4 highSmall lowSmall]
      apply congrArg some
      omega

/-- An address, however it is spelled. -/
inductive Address where
  | ipv4 (value : Nat)
  | ipv6 (value : Nat)
deriving DecidableEq

/-- The address that a host spells, without its zone. -/
def addressOf (host : List Char) : Option Address :=
  match ipv4Value (bareHost host) with
  | some value => some (.ipv4 value)
  | none => (ipv6Value (bareHost host)).map .ipv6

/-- The IPv4 address inside an IPv4-mapped or NAT64 address. -/
def embeddedIpv4 (value : Nat) : Option Nat :=
  if value / 2 ^ 32 = mappedBits ∨ value / 2 ^ 32 = nat64Bits then some (value % 2 ^ 32) else none

/-- The address lies in a blocked range or embeds one that does. -/
def Address.blocked : Address → Bool
  | .ipv4 value => blockedIpv4 value
  | .ipv6 value => blockedIpv6 value || (embeddedIpv4 value).any blockedIpv4

def Address.mapped : Address → Bool
  | .ipv4 _ => false
  | .ipv6 value => value / 2 ^ 32 == mappedBits

/-- The host begins with `::ffff:`, in any letter case. -/
def prefixed (host : List Char) : Bool :=
  mappedPrefix.isPrefixOf ((bareHost host).map Char.toLower)

theorem blockedIpv6_iff (value : Nat) : blockedIpv6 value = true ↔
    value = 0 ∨ value = 1 ∨ value / 2 ^ 121 = 0x7e ∨ value / 2 ^ 118 = 0x3fa ∨ value / 2 ^ 120 = 0xff := by
  have subnets : blockedIpv6List = [⟨0, 128⟩, ⟨1, 128⟩, ⟨0xfc00 * 2 ^ 112, 7⟩,
      ⟨0xfe80 * 2 ^ 112, 10⟩, ⟨0xff00 * 2 ^ 112, 8⟩] := by decide +kernel
  rw [blockedIpv6, subnets]
  simp [Subnet.covers, Nat.shiftRight_eq_div_pow]

variable {value : Nat}

theorem blockedIpv6_embedded (embeds : value / 2 ^ 32 = mappedBits ∨ value / 2 ^ 32 = nat64Bits) :
    blockedIpv6 value = false := by
  rw [mappedBits, nat64Bits] at embeds
  rw [Bool.eq_false_iff, ne_eq, blockedIpv6_iff]
  omega

theorem render_colon {text : Ipv6Text} (formed : text.WellFormed) : ':' ∈ text.render := by
  obtain ⟨left, right, quad⟩ := text
  cases right with
  | some right => simp [Ipv6Text.render]
  | none =>
    have whole := formed.whole rfl
    have short : quad.toList.length ≤ 1 := by cases quad <;> simp
    simp only [Ipv6Text.written, Ipv6Text.groups, Option.getD_none, List.append_nil] at whole
    cases left with
    | nil =>
      rw [List.length_nil] at whole
      omega
    | cons first left =>
      cases left with
      | nil =>
        rw [List.length_singleton] at whole
        omega
      | cons second left => simp [Ipv6Text.render, join_cons_cons]

variable {host : List Char}

theorem blocksLiteral_ipv4 (spells : ipv4Value (bareHost host) = some value) :
    blocksLiteral host = blockedIpv4 value := by
  obtain ⟨octets, parsed, _⟩ := Option.map_eq_some_iff.mp spells
  have nonempty : bareHost host ≠ [] := List.ne_nil_of_mem (parseIpv4_chars parsed).1
  have four : isIP (bareHost host) = 4 := by
    rw [isIP, parsed]
    rfl
  have literal : normalizeIpLiteral host = .ipv4 (bareHost host) := by
    simp only [normalizeIpLiteral, if_neg nonempty, if_pos four]
  simp only [blocksLiteral, literal, spells, Option.any_some]

theorem blocksLiteral_ipv6 (spells : ipv6Value (bareHost host) = some value) :
    blocksLiteral host =
      if prefixed host then
        if value / 2 ^ 32 = mappedBits then blockedIpv4 (value % 2 ^ 32) else true
      else if value / 2 ^ 32 = nat64Bits then blockedIpv4 (value % 2 ^ 32)
      else blockedIpv6 value := by
  obtain ⟨text, parsed, rfl⟩ := Option.map_eq_some_iff.mp spells
  obtain ⟨shape, formed⟩ := render_parse parsed
  have colon := render_colon formed
  rw [shape] at colon
  have six : isIP (bareHost host) = 6 := by
    rw [isIP, parseIpv4_colon colon, parsed]
    rfl
  have read : normalizeIpLiteral host = if prefixed host then
        normalizeMapped (((bareHost host).map Char.toLower).drop mappedPrefix.length)
      else if text.hextets.take 6 = [0x64, 0xff9b, 0, 0, 0, 0] then
        .ipv4 (hextetsToIpv4 (text.hextets.getD 6 0) (text.hextets.getD 7 0))
      else .ipv6 (bareHost host) := by
    simp only [normalizeIpLiteral, if_neg (List.ne_nil_of_mem colon), six, prefixed,
      ← expandIpv6ToHextets_render formed, shape]
    rfl
  rw [blocksLiteral, read]
  by_cases begins : prefixed host = true
  · obtain ⟨mapped, rest⟩ := List.isPrefixOf_iff_prefix.mp begins
    have lowered : text.lower.render = mappedPrefix ++ mapped := by
      rw [formed.render_lower, shape, rest]
    have spec := normalizeMapped_spec formed.lower lowered
    have same : text.lower.value = text.value := 
      congrArg (digitsValue 65536) Ipv6Text.lower_hextets
    rw [same] at spec
    rw [if_pos begins, if_pos begins, ← rest, List.drop_left]
    split at spec
    · rename_i wide
      obtain ⟨literal, normalized, embedded⟩ := spec
      rw [if_pos wide, normalized]
      simp only [embedded, Option.any_some]
    · rename_i narrow
      rw [if_neg narrow, spec]
  · obtain ⟨nat64, embedded⟩ := nat64_value formed
    rw [if_neg begins, if_neg begins]
    by_cases translated : text.value / 2 ^ 32 = nat64Bits
    · rw [if_pos (nat64.mpr translated), if_pos translated]
      simp only [embedded, Option.any_some]
    · rw [if_neg (fun hextets => translated (nat64.mp hextets)), if_neg translated]
      simp only [spells, Option.any_some]

theorem addressOf_ipv4 (spells : addressOf host = some (.ipv4 value)) : ipv4Value (bareHost host) = some value := by
  rw [addressOf] at spells
  split at spells
  · rename_i found
    cases spells
    exact found
  · simp at spells

theorem addressOf_ipv6 (spells : addressOf host = some (.ipv6 value)) : ipv6Value (bareHost host) = some value := by
  rw [addressOf] at spells
  split at spells
  · simp at spells
  · simpa using spells

/-- Where `::ffff:` is in front of mapped addresses only, and of all of them, the answer
is that of the address. -/
theorem blocksLiteral_address {address : Address}
    (spells : addressOf host = some address) (shown : prefixed host = address.mapped) :
    blocksLiteral host = address.blocked := by
  cases address with
  | ipv4 value => exact blocksLiteral_ipv4 (addressOf_ipv4 spells)
  | ipv6 value =>
    rw [blocksLiteral_ipv6 (addressOf_ipv6 spells), shown, Address.blocked, Address.mapped, embeddedIpv4]
    have outside := @blockedIpv6_embedded value
    have narrow : nat64Bits ≠ mappedBits := by decide
    generalize value / 2 ^ 32 = bits at outside ⊢
    by_cases wide : bits = mappedBits
    · simp [wide, outside (.inl wide)]
    · by_cases translated : bits = nat64Bits
      · simp [translated, narrow, outside (.inr translated)]
      · simp [wide, translated]

theorem blocksLiteral_of_blocked {address : Address}
    (spells : addressOf host = some address) (shown : address.mapped = true → prefixed host = true)
    (blocked : address.blocked = true) : blocksLiteral host = true := by
  by_cases same : prefixed host = address.mapped
  · rw [blocksLiteral_address spells same, blocked]
  · -- an address that only looks mapped is refused
    cases address with
    | ipv4 value => exact (blocksLiteral_ipv4 (addressOf_ipv4 spells)).trans blocked
    | ipv6 value =>
      rw [blocksLiteral_ipv6 (addressOf_ipv6 spells)]
      cases begins : prefixed host with
      | false => simp_all
      | true =>
        have narrow : value / 2 ^ 32 ≠ mappedBits := by
          intro wide
          rw [begins, Address.mapped, wide, beq_self_eq_true] at same
          contradiction
        rw [if_pos rfl, if_neg narrow]

/-- The answer of both checks is a function of the address that a host spells, and it is
yes for every address that is blocked. -/
theorem blocking_depends_on_address {first second : List Char} {address : Address}
    (firstSpells : addressOf (stripIpv6Brackets first) = some address)
    (secondSpells : addressOf (stripIpv6Brackets second) = some address)
    (firstShown : address.mapped = true → prefixed (stripIpv6Brackets first) = true)
    (secondShown : address.mapped = true → prefixed (stripIpv6Brackets second) = true) :
    (address.blocked = true → isBlockedIpAddress (stripIpv6Brackets first) = true ∧
        isReservedIp (stripIpv6Brackets first) = true) ∧
      ((prefixed (stripIpv6Brackets first) = true → address.mapped = true) →
        (prefixed (stripIpv6Brackets second) = true → address.mapped = true) →
          isBlockedIpAddress (stripIpv6Brackets first) = isBlockedIpAddress (stripIpv6Brackets second) ∧
            isReservedIp (stripIpv6Brackets first) = isReservedIp (stripIpv6Brackets second)) := by
  constructor
  · intro blocked
    have answer := blocksLiteral_of_blocked firstSpells firstShown blocked
    exact ⟨answer, answer⟩
  · intro firstOnly secondOnly
    have firstAnswer := blocksLiteral_address firstSpells (Bool.eq_iff_iff.mpr ⟨firstOnly, firstShown⟩)
    have secondAnswer := blocksLiteral_address secondSpells (Bool.eq_iff_iff.mpr ⟨secondOnly, secondShown⟩)
    have same := firstAnswer.trans secondAnswer.symm
    exact ⟨same, same⟩

theorem blocking_of_mapped_loopback :
    isBlockedIpAddress "::FFFF:127.0.0.1%lo".toList =
      isBlockedIpAddress (stripIpv6Brackets "[::ffff:7f00:0001]".toList) := by
  have spellings : addressOf "::FFFF:127.0.0.1%lo".toList = some (.ipv6 0xffff7f000001) ∧
      addressOf (stripIpv6Brackets "[::ffff:7f00:0001]".toList) = some (.ipv6 0xffff7f000001) ∧
      prefixed "::FFFF:127.0.0.1%lo".toList = true ∧
      prefixed (stripIpv6Brackets "[::ffff:7f00:0001]".toList) = true := by
    decide +kernel
  obtain ⟨first, second, firstShown, secondShown⟩ := spellings
  have bare : stripIpv6Brackets "::FFFF:127.0.0.1%lo".toList = "::FFFF:127.0.0.1%lo".toList := by
    decide +kernel
  rw [← bare] at first firstShown ⊢
  have both := blocking_depends_on_address first second (fun _ => firstShown) (fun _ => secondShown)
  exact (both.2 (fun _ => rfl) (fun _ => rfl)).1

/-- IPv4-compatible spellings are not decoded, and an IPv4-mapped address is decoded by
its spelling. -/
theorem blocking_not_by_address :
    (addressOf "::7f00:1".toList = some (.ipv6 0x7f000001) ∧ blockedIpv4 0x7f000001 = true ∧
      isBlockedIpAddress "::7f00:1".toList = false ∧ isReservedIp "::7f00:1".toList = false) ∧
    addressOf "0:0:0:0:0:ffff:7f00:1".toList = addressOf "::ffff:7f00:1".toList ∧
      isBlockedIpAddress "0:0:0:0:0:ffff:7f00:1".toList = false ∧
      isReservedIp "0:0:0:0:0:ffff:7f00:1".toList = false ∧ isBlockedIpAddress "::ffff:7f00:1".toList = true ∧
      isReservedIp "::ffff:7f00:1".toList = true := by
  decide +kernel

end Lobu.Proxy
