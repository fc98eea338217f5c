import Lobu.Foundation.Text

namespace Lobu.Proxy

open Lobu.Foundation

/-! # Domain patterns

How host names and the patterns of allow, deny and grant lists are normalised, and the
match of a name against patterns.  On the labels of the name a pattern is one name, or
a domain with everything below it.
-/

def labels (name : List Char) : List (List Char) :=
  name.splitOn '.'

/-- The characters of a canonical ASCII host name. -/
def isHostChar (c : Char) : Bool :=
  c.isLower || c.isDigit || ['-', '_', '.'].contains c

/-- The last label is a name, so that the text is no IPv4 address. -/
def topNamed (name : List Char) : Bool :=
  match (labels name).getLast? with
  | some top => top != [] && !top.all Char.isDigit && !"0x".toList.isPrefixOf top
  | none => false

/-- `String.prototype.toLowerCase` and `domainToASCII`, which gives the empty text for
what it cannot convert. -/
structure DomainNames where
  lower : List Char → List Char
  ascii : List Char → List Char
  lower_ascii : ∀ text : List Char, (∀ c ∈ text, c.toNat < 128) →
    lower text = text.map Char.toLower
  lower_lower : ∀ text, lower (lower text) = lower text
  lower_dot : ∀ text, lower ('.' :: text) = '.' :: lower text
  lower_case : ∀ text : List Char, lower (text.map Char.toLower) = lower text
  ascii_case : ∀ text : List Char, ascii (text.map Char.toLower) = ascii text
  ascii_chars : ∀ text, ∀ c ∈ ascii text, c.toNat < 128 ∧ c.toLower = c
  ascii_name : ∀ name : List Char, (∀ c ∈ name, isHostChar c = true) → topNamed name = true →
    ascii name = name ∨ ascii name = []

section Normalising

variable (names : DomainNames)

def toAscii (host : List Char) : List Char :=
  if names.ascii host ≠ [] then names.ascii host else names.lower host

def normalizeDomainPattern (pattern : List Char) : List Char :=
  let trimmed := trim pattern
  if ['/'].isPrefixOf trimmed then trimmed
  else
    let normalized := names.lower trimmed
    if ['*', '.'].isPrefixOf normalized then '.' :: toAscii names (normalized.drop 2)
    else toAscii names normalized

/-- Normalises the patterns, each once, and leaves empty ones out. -/
def normalizeDomainPatterns (patterns : List (List Char)) : List (List Char) :=
  ((patterns.map (normalizeDomainPattern names)).filter (· ≠ [])).eraseDups

def canonicalizeHostname (hostname : List Char) : List Char :=
  let stripped := hostname.rdropWhile (· == '.')
  names.lower (if names.ascii stripped ≠ [] then names.ascii stripped else stripped)

def matchesDomainPattern (hostname : List Char) (patterns : List (List Char)) : Bool :=
  let lowerHostname := names.lower hostname
  patterns.any fun pattern =>
    let lowerPattern := names.lower pattern
    if ['.'].isPrefixOf lowerPattern then
      -- wildcard pattern: .example.com matches *.example.com
      let domain := lowerPattern.drop 1
      lowerHostname == domain || ('.' :: domain).isSuffixOf lowerHostname
    else lowerPattern == lowerHostname

theorem lower_ascii_text (text : List Char) : names.lower (names.ascii text) = names.ascii text := by
  rw [names.lower_ascii _ fun c member => (names.ascii_chars text c member).1]
  conv_rhs => rw [← List.map_id (names.ascii text)]
  exact List.map_congr_left fun c member => (names.ascii_chars text c member).2

theorem lower_toAscii (host : List Char) : names.lower (toAscii names host) = toAscii names host := by
  unfold toAscii
  split
  · exact lower_ascii_text names host
  · exact names.lower_lower host

theorem lower_canonicalizeHostname (hostname : List Char) :
    names.lower (canonicalizeHostname names hostname) = canonicalizeHostname names hostname :=
  names.lower_lower _

/-- The pattern of a domain and not of a tool. -/
def isDomainPattern (pattern : List Char) : Bool :=
  !(['/'].isPrefixOf (trim pattern))

theorem lower_normalizeDomainPattern {pattern : List Char} (domain : isDomainPattern pattern = true) :
    names.lower (normalizeDomainPattern names pattern) = normalizeDomainPattern names pattern := by
  have slash : ['/'].isPrefixOf (trim pattern) = false := by simpa [isDomainPattern] using domain
  simp only [normalizeDomainPattern, slash, Bool.false_eq_true, if_false]
  split
  · rw [names.lower_dot, lower_toAscii]
  · exact lower_toAscii names _

end Normalising

inductive DomainPattern where
  | exactly (name : List (List Char))
  | under (domain : List (List Char))

namespace DomainPattern

/-- `under` a domain are the domain itself and every name below it. -/
def Matches : DomainPattern → List (List Char) → Prop
  | exactly name, host => host = name
  | under domain, host => domain <:+ host

instance (pattern : DomainPattern) (host : List (List Char)) :
    Decidable (pattern.Matches host) :=
  match pattern with
  | exactly name => inferInstanceAs (Decidable (host = name))
  | under domain => inferInstanceAs (Decidable (domain <:+ host))

/-- The pattern that a normalised text writes. -/
def ofText : List Char → DomainPattern
  | '.' :: domain => under (labels domain)
  | name => exactly (labels name)

theorem ofText_name {name : List Char} (undotted : ∀ domain, name ≠ '.' :: domain) :
    ofText name = exactly (labels name) := by
  unfold ofText
  split
  · rename_i domain
    exact absurd rfl (undotted domain)
  · rfl

end DomainPattern

theorem labels_injective {name other : List Char} (same : labels name = labels other) : name = other := by
  have joined := congrArg (['.'].intercalate ·) same
  simpa only [labels, List.intercalate_splitOn] using joined

theorem matchesDomainPattern_iff (names : DomainNames) {hostname : List Char}
    {patterns : List (List Char)} (settled : names.lower hostname = hostname)
    (normal : ∀ pattern ∈ patterns, names.lower pattern = pattern) :
    matchesDomainPattern names hostname patterns = true ↔
      ∃ pattern ∈ patterns, (DomainPattern.ofText pattern).Matches (labels hostname) := by
  simp only [matchesDomainPattern, List.any_eq_true, settled]
  apply exists_congr
  intro pattern
  apply and_congr_right
  intro member
  rw [normal pattern member]
  by_cases wildcard : ∃ domain, pattern = '.' :: domain
  · obtain ⟨domain, rfl⟩ := wildcard
    have first : ['.'].isPrefixOf ('.' :: domain) = true := by simp [List.isPrefixOf]
    rw [if_pos first, List.drop_one, List.tail_cons, Bool.or_eq_true, beq_iff_eq, List.isSuffixOf_iff_suffix]
    exact splitOn_suffix_iff.symm
  · have first : ['.'].isPrefixOf pattern = false := by
      cases pattern with
      | nil => rfl
      | cons first rest =>
        have other : ('.' == first) = false := beq_false_of_ne fun same => wildcard ⟨rest, by rw [same]⟩
        rw [List.isPrefixOf, other, Bool.false_and]
    rw [if_neg (by rw [first]; decide), beq_iff_eq]
    rw [DomainPattern.ofText_name fun domain shape => wildcard ⟨domain, shape⟩]
    exact ⟨fun same => congrArg labels same.symm, fun same => (labels_injective same).symm⟩

/-- A canonical name of a host that is no address. -/
structure IsHostname (name : List Char) : Prop where
  chars : ∀ c ∈ name, isHostChar c = true
  nonempty : ∀ label ∈ labels name, label ≠ []
  top : topNamed name = true

instance (name : List Char) : Decidable (IsHostname name) :=
  decidable_of_iff (name.all isHostChar = true ∧ (∀ label ∈ labels name, label ≠ []) ∧
    topNamed name = true)
    ⟨fun parts => ⟨List.all_eq_true.mp parts.1, parts.2.1, parts.2.2⟩,
      fun host => ⟨List.all_eq_true.mpr host.chars, host.nonempty, host.top⟩⟩

theorem isHostChar_range {c : Char} (host : isHostChar c = true) :
    45 ≤ c.toNat ∧ c.toNat ≤ 122 ∧ c.toNat ≠ 47 ∧ (c.toNat ≤ 64 ∨ 91 ≤ c.toNat) := by
  simp only [isHostChar, Bool.or_eq_true, isDigit_iff, List.contains_iff_mem] at host
  rcases host with (lower | digit) | other
  · change (decide (c.val ≥ 97) && decide (c.val ≤ 122)) = true at lower
    simp only [Bool.and_eq_true, decide_eq_true_eq, ge_iff_le, UInt32.le_iff_toNat_le] at lower
    have bounds : 97 ≤ c.toNat ∧ c.toNat ≤ 122 := lower
    omega
  · omega
  · simp only [List.mem_cons, List.not_mem_nil, or_false] at other
    rcases other with rfl | rfl | rfl <;> decide

theorem isHostChar_toLower {c : Char} (host : isHostChar c = true) : c.toLower = c := by
  have range := isHostChar_range host
  apply Char.toNat_inj.mp
  rw [toNat_toLower, if_neg (by omega)]

theorem isHostChar_not_space {c : Char} (host : isHostChar c = true) : isSpace c = false := by
  have range := isHostChar_range host
  simp only [isSpace, Bool.or_eq_false_iff, decide_eq_false_iff_not, List.contains_eq_mem,
    List.mem_cons, List.not_mem_nil, or_false]
  constructor
  · omega
  · intro blank
    omega

section Hostnames

variable (names : DomainNames) {name : List Char}

theorem toLower_hostname (chars : ∀ c ∈ name, isHostChar c = true) : name.map Char.toLower = name := by
  conv_rhs => rw [← List.map_id name]
  exact List.map_congr_left fun c member => isHostChar_toLower (chars c member)

theorem lower_hostname (chars : ∀ c ∈ name, isHostChar c = true) : names.lower name = name := by
  rw [names.lower_ascii]
  · exact toLower_hostname chars
  · intro c member
    have range := isHostChar_range (chars c member)
    omega

theorem toAscii_hostname (chars : ∀ c ∈ name, isHostChar c = true) (top : topNamed name = true) :
    toAscii names name = name := by
  unfold toAscii
  rcases names.ascii_name name chars top with same | rejected
  · rw [same]
    split
    · rfl
    · exact lower_hostname names chars
  · rw [rejected, if_neg (by simp)]
    exact lower_hostname names chars

theorem first_not_mem {first : Char} {name rest : List Char}
    (absent : first ∉ name) : (first :: rest).isPrefixOf name = false := by
  rw [Bool.eq_false_iff, ne_eq, List.isPrefixOf_iff_prefix]
  rintro ⟨more, rfl⟩
  exact absent (by simp)

theorem normalize_name (chars : ∀ c ∈ name, isHostChar c = true) (top : topNamed name = true) :
    normalizeDomainPattern names name = name := by
  have trimmed := trim_of_no_blank fun c member => isHostChar_not_space (chars c member)
  have slash : ['/'].isPrefixOf name = false := by
    apply first_not_mem
    intro member
    have host := chars _ member
    contradiction
  have star : ['*', '.'].isPrefixOf name = false := by
    apply first_not_mem
    intro member
    have host := chars _ member
    contradiction
  simp only [normalizeDomainPattern, trimmed, slash, lower_hostname names chars, star,
    Bool.false_eq_true, if_false, toAscii_hostname names chars top]

theorem normalize_star (chars : ∀ c ∈ name, isHostChar c = true) (top : topNamed name = true) :
    normalizeDomainPattern names ('*' :: '.' :: name) = '.' :: name := by
  have trimmed : trim ('*' :: '.' :: name) = '*' :: '.' :: name := by
    apply trim_of_no_blank
    intro c member
    rcases List.mem_cons.mp member with rfl | member
    · decide
    · rcases List.mem_cons.mp member with rfl | member
      · decide
      · exact isHostChar_not_space (chars c member)
  have lowered : names.lower ('*' :: '.' :: name) = '*' :: '.' :: name := by
    rw [names.lower_ascii]
    · rw [List.map_cons, List.map_cons, toLower_hostname chars]
      rfl
    · intro c member
      rcases List.mem_cons.mp member with rfl | member
      · decide
      · rcases List.mem_cons.mp member with rfl | member
        · decide
        · have range := isHostChar_range (chars c member)
          omega
  have slash : ['/'].isPrefixOf ('*' :: '.' :: name) = false := rfl
  have star : ['*', '.'].isPrefixOf ('*' :: '.' :: name) = true := rfl
  simp only [normalizeDomainPattern, trimmed, slash, lowered, star, Bool.false_eq_true, if_false,
    if_true, List.drop_succ_cons, List.drop_zero, toAscii_hostname names chars top]

end Hostnames

theorem exists_tail {name : List Char} (several : 2 ≤ (labels name).length) :
    ∃ label tail, name = label ++ '.' :: tail ∧ '.' ∉ label ∧ labels name = label :: labels tail := by
  have dotted : '.' ∈ name := by
    by_contra dotless
    rw [labels, List.splitOn_eq_singleton dotless, List.length_singleton] at several
    omega
  obtain ⟨label, tail, shape, first⟩ := List.eq_append_cons_of_mem dotted
  refine ⟨label, tail, shape, first, ?_⟩
  rw [shape, labels, List.splitOn_append_cons_self_of_not_mem first]
  rfl

theorem labels_dot (name : List Char) : labels ('.' :: name) = [] :: labels name :=
  List.splitOn_append_cons_self_of_not_mem (List.not_mem_nil (a := '.')) name

theorem topNamed_of_suffix {name other : List Char} (suffix : labels name <:+ labels other) :
    topNamed name = topNamed other := by
  obtain ⟨front, shape⟩ := suffix
  have last : (labels other).getLast? = (labels name).getLast? := by
    rw [← shape]
    exact List.getLast?_append_of_ne_nil front (List.splitOn_ne_nil '.' name)
  rw [topNamed, topNamed, last]

/-- Letters of ASCII only: every other name cannot be converted. -/
def asciiNames : DomainNames where
  lower text := text.map Char.toLower
  ascii text :=
    let lowered := text.map Char.toLower
    if lowered.all isHostChar = true ∧ topNamed lowered = true then lowered else []
  lower_ascii _ _ := rfl
  lower_lower text := by
    rw [List.map_map]
    exact List.map_congr_left fun c _ => toLower_toLower c
  lower_dot _ := rfl
  lower_case text := by
    rw [List.map_map]
    exact List.map_congr_left fun c _ => toLower_toLower c
  ascii_case text := by
    have twice : (text.map Char.toLower).map Char.toLower = text.map Char.toLower := by
      rw [List.map_map]
      exact List.map_congr_left fun c _ => toLower_toLower c
    simp only [twice]
  ascii_chars text c member := by
    dsimp only at member
    split at member
    · rename_i plain
      have host := List.all_eq_true.mp plain.1 c member
      have range := isHostChar_range host
      exact ⟨by omega, isHostChar_toLower host⟩
    · contradiction
  ascii_name name chars top := by
    rw [toLower_hostname chars]
    exact .inl (if_pos ⟨List.all_eq_true.mpr chars, top⟩)

end Lobu.Proxy
