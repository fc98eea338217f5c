import Lobu.Foundation.Text
import Mathlib.Algebra.Ring.Nat

namespace Lobu.Foundation

/-! # Texts of IP addresses

IPv4 addresses in dotted decimal notation without leading zeros, and IPv6
addresses as groups of one to four hexadecimal digits, of which one `::` stands for
one or more groups of zeros and a dotted tail for the last two.
-/

def decimalValue (digits : List Char) : Nat :=
  digits.foldl (fun value digit => value * 10 + (digit.toNat - '0'.toNat)) 0

def isOctet (digits : List Char) : Bool :=
  digits.all Char.isDigit && decide (digits.length ∈ [1, 2, 3]) &&
    (digits.length == 1 || digits.head? != some '0') && decide (decimalValue digits ≤ 255)

/-- The four octets of an IPv4 address. -/
def parseIpv4 (text : List Char) : Option (List Nat) :=
  let fields := text.splitOn '.'
  if fields.length = 4 ∧ fields.all isOctet = true then some (fields.map decimalValue) else none

/-- Digits of a number in a base, the highest first. -/
def digitsValue (base : Nat) (digits : List Nat) : Nat :=
  digits.foldl (fun value digit => value * base + digit) 0

theorem digitsValue_concat (base : Nat) (digits : List Nat) (last : Nat) :
    digitsValue base (digits ++ [last]) = digitsValue base digits * base + last := by
  rw [digitsValue, List.foldl_append]
  rfl

theorem digitsValue_cons (base first : Nat) (digits : List Nat) :
    digitsValue base (first :: digits) = first * base ^ digits.length + digitsValue base digits := by
  induction digits using List.reverseRecOn with
  | nil => simp [digitsValue]
  | append_singleton digits last ih =>
    rw [← List.cons_append, digitsValue_concat, ih, digitsValue_concat, List.length_append,
      List.length_singleton, Nat.pow_succ, Nat.add_mul, Nat.mul_assoc, Nat.add_assoc]

theorem digitsValue_zeros (base count : Nat) (digits : List Nat) :
    digitsValue base (List.replicate count 0 ++ digits) = digitsValue base digits := by
  induction count with
  | zero => rfl
  | succ count ih =>
    rw [List.replicate_succ, List.cons_append, digitsValue_cons, Nat.zero_mul, Nat.zero_add, ih]

theorem digitsValue_lt {base : Nat} {digits : List Nat} (small : ∀ digit ∈ digits, digit < base) :
    digitsValue base digits < base ^ digits.length := by
  induction digits with
  | nil => simp [digitsValue]
  | cons first digits ih =>
    have rest := ih fun digit member => small digit (List.mem_cons_of_mem _ member)
    have bound : (first + 1) * base ^ digits.length ≤ base * base ^ digits.length :=
      Nat.mul_le_mul_right _ (small first (by simp))
    rw [Nat.add_mul, Nat.one_mul] at bound
    rw [digitsValue_cons, List.length_cons, Nat.pow_succ, Nat.mul_comm _ base]
    omega

def ipv4Value (text : List Char) : Option Nat :=
  (parseIpv4 text).map (digitsValue 256)

def renderOctet (octet : Nat) : List Char :=
  Nat.toDigits 10 octet

def renderIpv4 (octets : List Nat) : List Char :=
  ['.'].intercalate (octets.map renderOctet)

theorem renderOctet_spec : ∀ octet < 256, isOctet (renderOctet octet) = true ∧
    decimalValue (renderOctet octet) = octet := by
  decide +kernel

variable {c : Char}

theorem not_mem_octet {digits : List Char} (octet : isOctet digits = true)
    (other : c.isDigit = false) : c ∉ digits := by
  intro member
  simp only [isOctet, Bool.and_eq_true, List.all_eq_true] at octet
  have digit := octet.1.1.1 c member
  rw [other] at digit
  contradiction

theorem parse_renderIpv4 (octets : List Nat) (four : octets.length = 4)
    (bytes : ∀ octet ∈ octets, octet < 256) : parseIpv4 (renderIpv4 octets) = some octets := by
  have fields : (renderIpv4 octets).splitOn '.' = octets.map renderOctet := by
    apply List.splitOn_intercalate
    · intro field member
      obtain ⟨octet, among, rfl⟩ := List.mem_map.mp member
      exact not_mem_octet (renderOctet_spec octet (bytes octet among)).1 (by decide)
    · intro nothing
      rw [List.map_eq_nil_iff.mp nothing] at four
      contradiction
  have valid : (octets.map renderOctet).all isOctet = true := by
    rw [List.all_map, List.all_eq_true]
    intro octet member
    exact (renderOctet_spec octet (bytes octet member)).1
  have values : (octets.map renderOctet).map decimalValue = octets := by
    rw [List.map_map]
    conv_rhs => rw [← List.map_id octets]
    apply List.map_congr_left
    intro octet member
    exact (renderOctet_spec octet (bytes octet member)).2
  simp only [parseIpv4, fields, List.length_map, four, valid, values, and_self, if_true]

theorem parseIpv4_sound {text : List Char} {octets : List Nat} (parsed : parseIpv4 text = some octets) :
    (text.splitOn '.').map decimalValue = octets ∧ octets.length = 4 ∧
      (∀ octet ∈ octets, octet < 256) ∧ ∀ field ∈ text.splitOn '.', isOctet field = true := by
  simp only [parseIpv4] at parsed
  split at parsed
  · rename_i formed
    obtain ⟨four, octet⟩ := formed
    rw [List.all_eq_true] at octet
    cases parsed
    refine ⟨rfl, by rw [List.length_map, four], ?_, octet⟩
    intro value member
    obtain ⟨field, among, rfl⟩ := List.mem_map.mp member
    have small := octet field among
    simp only [isOctet, Bool.and_eq_true, decide_eq_true_eq] at small
    omega
  · contradiction

theorem parseIpv4_chars {text : List Char} {octets : List Nat} (parsed : parseIpv4 text = some octets) :
    '.' ∈ text ∧ ∀ c ∈ text, c = '.' ∨ c.isDigit = true := by
  obtain ⟨values, four, _, octet⟩ := parseIpv4_sound parsed
  have whole : ['.'].intercalate (text.splitOn '.') = text := List.intercalate_splitOn '.'
  constructor
  · by_contra dotless
    rw [List.splitOn_eq_singleton dotless] at values
    rw [← values] at four
    simp at four
  · intro c member
    rw [← whole] at member
    generalize text.splitOn '.' = fields at octet member
    clear values
    induction fields with
    | nil => simp at member
    | cons field fields ih =>
      cases fields with
      | nil =>
        rw [List.intercalate_singleton] at member
        by_contra other
        exact not_mem_octet (octet field (by simp)) (by grind) member
      | cons next fields =>
        rw [List.intercalate_cons_cons] at member
        rcases List.mem_append.mp member with inField | inRest
        · rcases List.mem_append.mp inField with inField | dot
          · by_contra other
            exact not_mem_octet (octet field (by simp)) (by grind) inField
          · exact .inl (List.mem_singleton.mp dot)
        · exact ih (fun field among => octet field (List.mem_cons_of_mem _ among)) inRest

def hexDigitValue (c : Char) : Nat :=
  if c.isDigit then c.toNat - 48 else c.toLower.toNat - 87

def isHexDigit (c : Char) : Bool :=
  c.isDigit || decide (97 ≤ c.toLower.toNat ∧ c.toLower.toNat ≤ 102)

def hexValue (digits : List Char) : Nat :=
  digits.foldl (fun value digit => value * 16 + hexDigitValue digit) 0

def isGroup (digits : List Char) : Bool :=
  digits.all isHexDigit && decide (digits.length ∈ [1, 2, 3, 4])

theorem hexDigit_toLower (c : Char) : isHexDigit c.toLower = isHexDigit c ∧
    hexDigitValue c.toLower = hexDigitValue c := by
  have digit : c.toLower.isDigit = c.isDigit := by
    rw [Bool.eq_iff_iff, isDigit_iff, isDigit_iff, toNat_toLower]
    split <;> omega
  unfold isHexDigit hexDigitValue
  rw [toLower_toLower, digit]
  refine ⟨rfl, ?_⟩
  split
  · rename_i decimal
    rw [isDigit_iff] at decimal
    rw [toNat_toLower, if_neg (by omega)]
  · rfl

theorem hexDigitValue_lt (hex : isHexDigit c = true) : hexDigitValue c < 16 := by
  simp only [isHexDigit, Bool.or_eq_true, decide_eq_true_eq, isDigit_iff] at hex
  unfold hexDigitValue
  split
  · rename_i decimal
    rw [isDigit_iff] at decimal
    omega
  · rename_i letter
    rw [isDigit_iff] at letter
    omega

theorem hexValue_toLower (digits : List Char) : hexValue (digits.map Char.toLower) = hexValue digits := by
  unfold hexValue
  rw [List.foldl_map]
  congr
  funext value digit
  rw [(hexDigit_toLower digit).2]

theorem isGroup_toLower (digits : List Char) : isGroup (digits.map Char.toLower) = isGroup digits := by
  unfold isGroup
  rw [List.all_map, List.length_map]
  congr
  funext digit
  exact (hexDigit_toLower digit).1

theorem hexValue_lt {digits : List Char} (hex : digits.all isHexDigit = true) :
    hexValue digits < 16 ^ digits.length := by
  induction digits using List.reverseRecOn with
  | nil => decide
  | append_singleton digits last ih =>
    simp only [List.all_append, Bool.and_eq_true, List.all_cons, List.all_nil, and_true] at hex
    have before := ih hex.1
    have digit := hexDigitValue_lt hex.2
    simp only [hexValue, List.foldl_append, List.foldl_cons, List.foldl_nil,
      List.length_append, List.length_singleton, Nat.pow_succ] at before ⊢
    omega

section Groups

variable {group : List Char} (valid : isGroup group = true)
include valid

theorem group_digits : group.all isHexDigit = true := by
  simp only [isGroup, Bool.and_eq_true] at valid
  exact valid.1

theorem group_ne_nil : group ≠ [] := by
  rintro rfl
  simp [isGroup] at valid

theorem group_not_mem (other : isHexDigit c = false) : c ∉ group := by
  intro member
  have digit := List.all_eq_true.mp (group_digits valid) c member
  rw [other] at digit
  contradiction

theorem group_value_lt : hexValue group < 65536 := by
  have small := hexValue_lt (group_digits valid)
  simp only [isGroup, Bool.and_eq_true, decide_eq_true_eq] at valid
  have width : 16 ^ group.length ≤ 16 ^ 4 := by
    apply Nat.pow_le_pow_right (by decide)
    grind
  omega

end Groups

/-- The parts of an IPv6 text: `right` are the groups after `::`. -/
structure Ipv6Text where
  left : List (List Char)
  right : Option (List (List Char))
  quad : Option (List Char)

def join (fields : List (List Char)) : List Char :=
  [':'].intercalate fields

namespace Ipv6Text

def render (text : Ipv6Text) : List Char :=
  match text.right with
  | none => join (text.left ++ text.quad.toList)
  | some right => join text.left ++ ':' :: ':' :: join (right ++ text.quad.toList)

def groups (text : Ipv6Text) : List (List Char) :=
  text.left ++ text.right.getD []

/-- How many of the eight groups are written out. -/
def written (text : Ipv6Text) : Nat :=
  text.groups.length + 2 * text.quad.toList.length

structure WellFormed (text : Ipv6Text) : Prop where
  groups : ∀ group ∈ text.groups, isGroup group = true
  quad : ∀ quad ∈ text.quad, (parseIpv4 quad).isSome = true
  whole : text.right = none → text.written = 8
  shortened : text.right.isSome = true → text.written ≤ 7

instance (text : Ipv6Text) : Decidable text.WellFormed :=
  decidable_of_iff ((∀ group ∈ text.groups, isGroup group = true) ∧
    (∀ quad ∈ text.quad, (parseIpv4 quad).isSome = true) ∧
      (text.right = none → text.written = 8) ∧ (text.right.isSome = true → text.written ≤ 7))
    ⟨fun parts => ⟨parts.1, parts.2.1, parts.2.2.1, parts.2.2.2⟩,
      fun formed => ⟨formed.groups, formed.quad, formed.whole, formed.shortened⟩⟩

/-- The two groups that a dotted tail stands for. -/
def quadHextets (quad : Option (List Char)) : List Nat :=
  match quad.bind parseIpv4 with
  | some [a, b, c, d] => [a * 256 + b, c * 256 + d]
  | _ => []

/-- The eight groups. -/
def hextets (text : Ipv6Text) : List Nat :=
  text.left.map hexValue ++ List.replicate (8 - text.written) 0 ++
    (text.right.getD []).map hexValue ++ quadHextets text.quad

def value (text : Ipv6Text) : Nat :=
  digitsValue 65536 text.hextets

end Ipv6Text

/-- `text.split("::")` -/
def splitDouble : List Char → List (List Char)
  | [] => [[]]
  | ':' :: ':' :: rest => [] :: splitDouble rest
  | c :: rest => (splitDouble rest).modifyHead (c :: ·)

/-- The fields of a half, none when it is empty. -/
def splitColon (text : List Char) : List (List Char) :=
  if text = [] then [] else text.splitOn ':'

/-- Takes a dotted tail off the fields. -/
def cutQuad (fields : List (List Char)) : List (List Char) × Option (List Char) :=
  match fields.getLast? with
  | some last => if '.' ∈ last then (fields.dropLast, some last) else (fields, none)
  | none => (fields, none)

def parseIpv6 (text : List Char) : Option Ipv6Text :=
  let parts : Option Ipv6Text :=
    match splitDouble text with
    | [whole] =>
      let fields := cutQuad (splitColon whole)
      some { left := fields.1, right := none, quad := fields.2 }
    | [front, back] =>
      let fields := cutQuad (splitColon back)
      some { left := splitColon front, right := some fields.1, quad := fields.2 }
    | _ => none
  parts.filter fun parts => decide parts.WellFormed

theorem splitDouble_cons (other : c ≠ ':') (rest : List Char) :
    splitDouble (c :: rest) = (splitDouble rest).modifyHead (c :: ·) := by
  rw [splitDouble]
  grind

theorem splitDouble_colon (other : c ≠ ':') (rest : List Char) :
    splitDouble (':' :: c :: rest) = (splitDouble (c :: rest)).modifyHead (':' :: ·) := by
  rw [splitDouble]
  grind

theorem splitDouble_field {field : List Char} (colonless : ':' ∉ field) (rest : List Char) :
    splitDouble (field ++ rest) = (splitDouble rest).modifyHead (field ++ ·) := by
  induction field with
  | nil =>
    rw [List.nil_append]
    cases splitDouble rest <;> rfl
  | cons c field ih =>
    have other : c ≠ ':' := fun same => colonless (by simp [same])
    rw [List.cons_append, splitDouble_cons other, ih (fun member => colonless (by simp [member]))]
    cases splitDouble rest <;> rfl

/-- Fields that `splitDouble` does not cut. -/
def Fields (fields : List (List Char)) : Prop :=
  ∀ field ∈ fields, field ≠ [] ∧ ':' ∉ field

theorem join_cons_cons (field next : List Char) (fields : List (List Char)) :
    join (field :: next :: fields) = field ++ ':' :: join (next :: fields) := by
  rw [join, List.intercalate_cons_cons, List.append_assoc]
  rfl

variable {fields : List (List Char)}

theorem join_append_singleton (some : fields ≠ [])
    (last : List Char) : join (fields ++ [last]) = join fields ++ ':' :: last := by
  rw [join, intercalate_append some (by simp), List.intercalate_singleton]
  rfl

theorem join_getLast (plain : Fields fields) : (join fields).getLast? ≠ some ':' := by
  cases fields using List.reverseRecOn with
  | nil => simp [join]
  | append_singleton fields last =>
    have valid := plain last (by simp)
    have lastLetter : (join (fields ++ [last])).getLast? = last.getLast? := by
      cases fields with
      | nil => simp [join]
      | cons field fields =>
        rw [join_append_singleton (by simp)]
        cases last with
        | nil => exact absurd rfl valid.1
        | cons c last => simp [List.getLast?_append, List.getLast?_cons]
    rw [lastLetter]
    exact fun colon => valid.2 (List.mem_of_getLast? colon)

theorem not_mem_join (other : c ≠ ':') (absent : ∀ field ∈ fields, c ∉ field) : c ∉ join fields := by
  induction fields with
  | nil => exact List.not_mem_nil
  | cons field fields ih =>
    have first := absent field (by simp)
    cases fields with
    | nil => simpa [join] using first
    | cons next fields =>
      have rest := ih fun field member => absent field (List.mem_cons_of_mem _ member)
      rw [join_cons_cons]
      simp [first, rest, other]

theorem join_cons {field : List Char} (plain : Fields (field :: fields)) :
    ∃ c tail, c ≠ ':' ∧ join (field :: fields) = c :: tail := by
  have first := plain field (by simp)
  cases field with
  | nil => exact absurd rfl first.1
  | cons c field =>
    have other : c ≠ ':' := fun same => first.2 (by simp [same])
    cases fields with
    | nil => exact ⟨c, field, other, List.intercalate_singleton⟩
    | cons next fields => exact ⟨c, _, other, join_cons_cons _ _ _⟩

theorem join_ne_nil (plain : Fields fields) (some : fields ≠ []) : join fields ≠ [] := by
  cases fields with
  | nil => contradiction
  | cons field fields =>
    obtain ⟨c, tail, _, shape⟩ := join_cons plain
    rw [shape]
    exact List.cons_ne_nil c tail

theorem splitDouble_join (plain : Fields fields) (rest : List Char) :
    splitDouble (join fields ++ rest) = (splitDouble rest).modifyHead (join fields ++ ·) := by
  induction fields with
  | nil => exact splitDouble_field List.not_mem_nil rest
  | cons field fields ih =>
    have first := plain field (by simp)
    cases fields with
    | nil =>
      rw [join, List.intercalate_singleton]
      exact splitDouble_field first.2 rest
    | cons next fields =>
      have later : Fields (next :: fields) :=
        fun other member => plain other (List.mem_cons_of_mem _ member)
      have others := ih later
      obtain ⟨c, tail, other, shape⟩ := join_cons later
      rw [join_cons_cons, List.append_assoc, splitDouble_field first.2, List.cons_append,
        shape, List.cons_append, splitDouble_colon other, ← List.cons_append, ← shape, others]
      cases splitDouble rest <;> simp

theorem splitColon_join (plain : Fields fields) : splitColon (join fields) = fields := by
  cases fields with
  | nil => rfl
  | cons field others =>
    rw [splitColon, if_neg (join_ne_nil plain (by simp)), join]
    exact List.splitOn_intercalate ':' (fun field member => (plain field member).2) (by simp)

section WellFormed

variable {text : Ipv6Text} (formed : text.WellFormed)
include formed

theorem Ipv6Text.WellFormed.dotted (quad : List Char) (tail : quad ∈ text.quad) :
    '.' ∈ quad ∧ ':' ∉ quad ∧ quad ≠ [] := by
  obtain ⟨octets, parsed⟩ := Option.isSome_iff_exists.mp (formed.quad quad tail)
  obtain ⟨dot, chars⟩ := parseIpv4_chars parsed
  refine ⟨dot, ?_, List.ne_nil_of_mem dot⟩
  intro colon
  rcases chars _ colon with same | digit
  · contradiction
  · contradiction

theorem Ipv6Text.WellFormed.left_fields : Fields text.left := by
  intro field member
  have valid := formed.groups field (List.mem_append_left _ member)
  exact ⟨group_ne_nil valid, group_not_mem valid (by decide)⟩

theorem Ipv6Text.WellFormed.tail_fields (groups : List (List Char)) (some : groups ⊆ text.groups) :
    Fields (groups ++ text.quad.toList) := by
  intro field member
  rcases List.mem_append.mp member with group | quad
  · have valid := formed.groups field (some group)
    exact ⟨group_ne_nil valid, group_not_mem valid (by decide)⟩
  · have tail := formed.dotted field (Option.mem_toList.mp quad)
    exact ⟨tail.2.2, tail.2.1⟩

theorem Ipv6Text.WellFormed.right_fields {right : List (List Char)}
    (halves : text.right = some right) : Fields right := by
  intro field member
  have valid := formed.groups field (by simp [Ipv6Text.groups, halves, member])
  exact ⟨group_ne_nil valid, group_not_mem valid (by decide)⟩

end WellFormed

theorem splitDouble_nonempty (text : List Char) : ∃ part parts, splitDouble text = part :: parts := by
  fun_induction splitDouble text with
  | case1 => exact ⟨_, _, rfl⟩
  | case2 rest => exact ⟨_, _, rfl⟩
  | case3 c rest other ih =>
    obtain ⟨part, parts, cut⟩ := ih
    exact ⟨c :: part, parts, by rw [cut]; rfl⟩

theorem splitDouble_sound (text : List Char) : [':', ':'].intercalate (splitDouble text) = text := by
  fun_induction splitDouble text with
  | case1 => rfl
  | case2 rest ih =>
    obtain ⟨part, parts, cut⟩ := splitDouble_nonempty rest
    rw [cut] at ih ⊢
    rw [List.intercalate_cons_cons, ih]
    rfl
  | case3 c rest other ih =>
    obtain ⟨part, parts, cut⟩ := splitDouble_nonempty rest
    rw [cut] at ih ⊢
    rw [List.modifyHead_cons]
    cases parts with
    | nil =>
      rw [List.intercalate_singleton] at ih ⊢
      rw [ih]
    | cons next parts =>
      rw [List.intercalate_cons_cons] at ih ⊢
      rw [List.cons_append, List.cons_append, ih]

theorem splitColon_sound (text : List Char) : join (splitColon text) = text := by
  unfold splitColon
  split
  · rename_i nothing
    rw [nothing]
    rfl
  · exact List.intercalate_splitOn ':'

theorem cutQuad_sound (fields : List (List Char)) : (cutQuad fields).1 ++ (cutQuad fields).2.toList = fields := by
  unfold cutQuad
  split
  · rename_i last found
    split
    · exact List.dropLast_append_getLast? last found
    · simp
  · simp

theorem render_parse {text : List Char} {parts : Ipv6Text} (parsed : parseIpv6 text = some parts) :
    parts.render = text ∧ parts.WellFormed := by
  simp only [parseIpv6, Option.filter_eq_some_iff, decide_eq_true_eq] at parsed
  obtain ⟨read, formed⟩ := parsed
  refine ⟨?_, formed⟩
  have whole := splitDouble_sound text
  split at read
  · rename_i alone cut
    rw [cut, List.intercalate_singleton] at whole
    cases read
    simp only [Ipv6Text.render, cutQuad_sound, splitColon_sound]
    exact whole
  · rename_i front back cut
    rw [cut, List.intercalate_cons_cons, List.intercalate_singleton] at whole
    cases read
    simp only [Ipv6Text.render, cutQuad_sound, splitColon_sound]
    simpa using whole
  · contradiction

theorem quadHextets_spec {quad : Option (List Char)} (valid : ∀ text ∈ quad, (parseIpv4 text).isSome = true) :
    (Ipv6Text.quadHextets quad).length = 2 * quad.toList.length ∧
      ∀ hextet ∈ Ipv6Text.quadHextets quad, hextet < 65536 := by
  cases quad with
  | none => simp [Ipv6Text.quadHextets]
  | some text =>
    obtain ⟨octets, parsed⟩ := Option.isSome_iff_exists.mp (valid text rfl)
    obtain ⟨_, four, bytes, _⟩ := parseIpv4_sound parsed
    match octets, four with
    | [a, b, c, d], _ =>
      simp only [List.mem_cons, List.not_mem_nil, or_false, forall_eq_or_imp, forall_eq] at bytes
      simp only [Ipv6Text.quadHextets, Option.bind_some, parsed, List.mem_cons,
        List.not_mem_nil, or_false, forall_eq_or_imp, forall_eq]
      refine ⟨rfl, ?_, ?_⟩ <;> omega

theorem quadHextets_value {quad : List Char} (valid : (parseIpv4 quad).isSome = true) :
    ipv4Value quad = some (digitsValue 65536 (Ipv6Text.quadHextets (some quad))) := by
  obtain ⟨octets, parsed⟩ := Option.isSome_iff_exists.mp valid
  obtain ⟨_, four, _, _⟩ := parseIpv4_sound parsed
  match octets, four with
  | [a, b, c, d], _ =>
    simp only [ipv4Value, Ipv6Text.quadHextets, Option.bind_some, parsed, Option.map_some,
      digitsValue, List.foldl_cons, List.foldl_nil]
    apply congrArg some
    omega

theorem parseIpv4_colon {text : List Char} (colon : ':' ∈ text) : parseIpv4 text = none := by
  cases parsed : parseIpv4 text with
  | none => rfl
  | some octets =>
    rcases (parseIpv4_chars parsed).2 _ colon with same | digit
    · contradiction
    · contradiction

theorem Ipv6Text.WellFormed.hextets_spec {text : Ipv6Text} (formed : text.WellFormed) :
    text.hextets.length = 8 ∧ ∀ hextet ∈ text.hextets, hextet < 65536 := by
  obtain ⟨tailLength, tailSmall⟩ := quadHextets_spec formed.quad
  have written : text.written ≤ 8 := by
    cases halves : text.right with
    | none => exact (formed.whole halves).le
    | some right =>
      have short := formed.shortened (by rw [halves]; rfl)
      omega
  have small : ∀ group ∈ text.groups, hexValue group < 65536 :=
    fun group member => group_value_lt (formed.groups group member)
  simp only [Ipv6Text.written, Ipv6Text.groups, List.length_append] at written
  simp only [Ipv6Text.groups, List.mem_append] at small
  constructor
  · simp only [Ipv6Text.hextets, List.length_append, List.length_map, List.length_replicate,
      tailLength, Ipv6Text.written, Ipv6Text.groups]
    omega
  · intro hextet member
    simp only [Ipv6Text.hextets, List.mem_append, List.mem_map, List.mem_replicate] at member
    rcases member with ((⟨group, among, rfl⟩ | ⟨_, rfl⟩) | ⟨group, among, rfl⟩) | member
    · exact small group (.inl among)
    · decide
    · exact small group (.inr among)
    · exact tailSmall hextet member

namespace Ipv6Text

/-- The same address with its digits in lower case. -/
def lower (text : Ipv6Text) : Ipv6Text where
  left := text.left.map fun group => group.map Char.toLower
  right := text.right.map fun right => right.map fun group => group.map Char.toLower
  quad := text.quad

variable {text : Ipv6Text}

theorem lower_groups : text.lower.groups = text.groups.map fun group => group.map Char.toLower := by
  rw [groups, groups, List.map_append]
  cases halves : text.right <;> simp [lower, halves]

theorem lower_written : text.lower.written = text.written := by
  rw [written, written, lower_groups, List.length_map]
  rfl

theorem lower_hextets : text.lower.hextets = text.hextets := by
  have values : ∀ fields : List (List Char),
      (fields.map fun group => group.map Char.toLower).map hexValue = fields.map hexValue := by
    intro fields
    rw [List.map_map]
    exact List.map_congr_left fun group _ => hexValue_toLower group
  rw [hextets, hextets, lower_written]
  cases halves : text.right <;> simp only [lower, halves, Option.map_none, Option.map_some,
    Option.getD_none, Option.getD_some, List.map_nil, values]

theorem WellFormed.lower (formed : text.WellFormed) : text.lower.WellFormed where
  groups := by
    intro group member
    rw [lower_groups] at member
    obtain ⟨original, among, rfl⟩ := List.mem_map.mp member
    rw [isGroup_toLower]
    exact formed.groups original among
  quad := formed.quad
  whole := by
    rw [lower_written]
    intro alone
    exact formed.whole (Option.map_eq_none_iff.mp alone)
  shortened := by
    rw [lower_written]
    intro halved
    exact formed.shortened (by simpa [Ipv6Text.lower] using halved)

end Ipv6Text

theorem join_toLower (fields : List (List Char)) :
    join (fields.map fun field => field.map Char.toLower) = (join fields).map Char.toLower := by
  induction fields with
  | nil => rfl
  | cons field fields ih =>
    cases fields with
    | nil => simp [join]
    | cons next fields =>
      rw [List.map_cons, List.map_cons, join_cons_cons, join_cons_cons, List.map_append, List.map_cons, ← ih]
      rfl

theorem quad_toLower {quad : List Char} (valid : (parseIpv4 quad).isSome = true) : quad.map Char.toLower = quad := by
  obtain ⟨octets, parsed⟩ := Option.isSome_iff_exists.mp valid
  conv_rhs => rw [← List.map_id quad]
  apply List.map_congr_left
  intro c member
  have letter := (parseIpv4_chars parsed).2 c member
  rw [isDigit_iff] at letter
  apply Char.toNat_inj.mp
  rw [toNat_toLower, id_eq]
  have small : c.toNat < 65 := by
    rcases letter with rfl | digit
    · decide
    · omega
  rw [if_neg (by omega)]

theorem Ipv6Text.WellFormed.render_lower {text : Ipv6Text} (formed : text.WellFormed) :
    text.lower.render = text.render.map Char.toLower := by
  obtain ⟨left, right, quad⟩ := text
  have tail : (quad.toList.map fun field => field.map Char.toLower) = quad.toList := by
    cases quad with
    | none => rfl
    | some quad => exact congrArg (fun text => [text]) (quad_toLower (formed.quad quad rfl))
  cases right with
  | none =>
    simp only [Ipv6Text.render, Ipv6Text.lower, Option.map_none]
    rw [← join_toLower, List.map_append, tail]
  | some right =>
    simp only [Ipv6Text.render, Ipv6Text.lower, Option.map_some]
    rw [List.map_append, List.map_cons, List.map_cons, ← join_toLower, ← join_toLower, List.map_append, tail]
    rfl

end Lobu.Foundation
