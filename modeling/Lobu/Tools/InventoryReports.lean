import Lobu.Tools.Eligibility
import Lobu.Tools.Readback

namespace Lobu.Tools

open Lobu.Foundation
open Lobu.Worker (trimmed)

/-! # Reported inventories

Which inventories the gateway takes as the worker reports them, what a
fingerprint says, and what a report leaves in the store.
-/

variable {runtime : Runtime}

theorem stringify_names (names : List String) :
    stringify runtime.numberText (Json.array (names.map Json.string)).canonicalize =
      bracketed (names.map quoted) := by
  have canonical : Json.canonicalizeItems (names.map Json.string) = names.map Json.string := by
    induction names with
    | nil => rfl
    | cons name names ih => rw [List.map_cons, Json.canonicalizeItems, ih]; rfl
  have written : stringifyItems runtime.numberText (names.map Json.string) = names.map quoted := by
    induction names with
    | nil => rfl
    | cons name names ih =>
      rw [List.map_cons, Json.canonicalizeItems, List.cons.injEq] at canonical
      rw [List.map_cons, stringifyItems, ih canonical.2]
      rfl
  rw [Json.canonicalize, canonical, stringify, written]

variable {names others : List String}

theorem quotedItems_cancel (same : (",".intercalate (names.map quoted)).toList ++ [']'] =
      (",".intercalate (others.map quoted)).toList ++ [']']) : names = others := by
  have opens : ∀ (name : String) (rest : List Char), (quoted name).toList ++ rest ≠ [']'] := by
    intro name rest
    simp [quoted, String.toList_append]
  have written : ∀ (name : String) (rest : List String), ∃ tail,
      (",".intercalate ((name :: rest).map quoted)).toList ++ [']'] =
        (quoted name).toList ++ tail ∧
      tail = if rest = [] then [']'] else
        ',' :: ((",".intercalate (rest.map quoted)).toList ++ [']']) := by
    intro name rest
    cases rest with
    | nil => exact ⟨[']'], by simp, rfl⟩
    | cons next rest => exact ⟨_, by simp [String.toList_append], rfl⟩
  induction names generalizing others with
  | nil =>
    cases others with
    | nil => rfl
    | cons other others =>
      obtain ⟨tail, text, -⟩ := written other others
      rw [text] at same
      exact absurd same.symm (opens _ _)
  | cons name names ih =>
    cases others with
    | nil =>
      obtain ⟨tail, text, -⟩ := written name names
      rw [text] at same
      exact absurd same (opens _ _)
    | cons other others =>
      obtain ⟨tail, text, ends⟩ := written name names
      obtain ⟨otherTail, otherText, otherEnds⟩ := written other others
      rw [text, otherText] at same
      obtain ⟨rfl, rest⟩ := quoted_cancel same
      rw [ends, otherEnds] at rest
      split at rest <;> split at rest
      · rename_i none_ others_
        rw [none_, others_]
      · cases rest
      · cases rest
      · rw [ih (List.cons.inj rest).2]

theorem names_injective (same : stringify runtime.numberText (Json.array (names.map Json.string)).canonicalize =
      stringify runtime.numberText (Json.array (others.map Json.string)).canonicalize) : names = others := by
  rw [stringify_names, stringify_names] at same
  have texts := congrArg String.toList same
  simp only [bracketed, String.toList_append, List.append_assoc] at texts
  exact quotedItems_cancel (List.append_cancel_left texts)

theorem digest_injective (injective : Function.Injective runtime.sha256)
    (same : digest runtime (.array (names.map Json.string)) =
      digest runtime (.array (others.map Json.string))) : names = others := by
  have texts := congrArg String.toList same
  rw [digest, digest, String.toList_append, String.toList_append] at texts
  exact names_injective (injective (String.toList_inj.mp (List.append_cancel_left texts)))

theorem isNameChar_blank {c : Char} (named : isNameChar c = true) : isSpace c = false := by
  have small : c.toNat < 128 := by
    simp only [isNameChar, isAlphanumeric, Bool.or_eq_true, decide_eq_true_eq,
      List.contains_eq_mem, List.mem_cons, List.not_mem_nil, or_false] at named
    rcases named with letter | rfl | rfl | rfl | rfl | rfl
    · omega
    all_goals decide
  have table : ∀ code : Fin 128, isNameChar (Char.ofNat code.val) = true →
      isSpace (Char.ofNat code.val) = false := by decide
  have blank := table ⟨c.toNat, small⟩
  simp only [Char.ofNat_toNat] at blank
  exact blank named

theorem isToolName_iff {name : String} :
    isToolName name = true ↔ name.toList.length ≤ 200 ∧
      name.toList.head?.any isAlphanumeric = true ∧ ∀ c ∈ name.toList, isNameChar c = true := by
  unfold isToolName
  cases name.toList with
  | nil => simp
  | cons first rest =>
    have letter : isAlphanumeric first = true → isNameChar first = true := by
      intro alphanumeric
      simp [isNameChar, alphanumeric]
    simp only [Bool.and_eq_true, decide_eq_true_eq, List.all_eq_true, List.length_cons,
      List.head?_cons, Option.any_some, List.mem_cons, forall_eq_or_imp]
    constructor
    · rintro ⟨⟨alphanumeric, short⟩, all⟩
      exact ⟨by omega, alphanumeric, letter alphanumeric, all⟩
    · rintro ⟨short, alphanumeric, -, all⟩
      exact ⟨⟨alphanumeric, by omega⟩, all⟩

theorem isToolName_trimmed {name : String} (named : isToolName name = true) : trimmed name = name := by
  have plain : ∀ c ∈ name.toList, isSpace c = false := fun c member =>
    isNameChar_blank ((isToolName_iff.mp named).2.2 c member)
  rw [trimmed, trim_of_no_blank plain, String.ofList_toList]

/-- The inventory of a list of names. -/
def inventoryOf (runtime : Runtime) (input : List String) : CanonicalInventory where
  names := sortedSet (input.map trimmed)
  fingerprint := digest runtime (.array ((sortedSet (input.map trimmed)).map Json.string))

theorem inventoryOf_congr {input others : List String}
    (same : sortedSet (input.map trimmed) = sortedSet (others.map trimmed)) :
    inventoryOf runtime input = inventoryOf runtime others := by
  rw [inventoryOf, inventoryOf, same]

theorem canonicalToolInventory_ok {input : List String} {inventory : CanonicalInventory} :
    canonicalToolInventory runtime input = .ok inventory ↔
      input.length ≤ 256 ∧ (∀ name ∈ input, isToolName (trimmed name) = true) ∧
        inventory = inventoryOf runtime input := by
  unfold canonicalToolInventory
  split
  · rename_i long
    constructor
    · intro failed
      cases failed
    · rintro ⟨short, -⟩
      omega
  · rename_i short
    have grammar : ((sortedSet (input.map trimmed)).any fun name => !isToolName name) = false ↔
        ∀ name ∈ input, isToolName (trimmed name) = true := by
      simp [List.any_eq_false]
    dsimp only
    split
    · rename_i broken
      constructor
      · intro failed
        cases failed
      · rintro ⟨-, fine, -⟩
        rw [grammar.mpr fine] at broken
        cases broken
    · rename_i fine
      have valid := grammar.mp (by simpa using fine)
      constructor
      · intro made
        cases made
        exact ⟨by omega, valid, rfl⟩
      · rintro ⟨-, -, rfl⟩
        rfl

theorem canonicalToolInventory_names {input : List String} {inventory : CanonicalInventory}
    (made : canonicalToolInventory runtime input = .ok inventory) :
    canonicalToolInventory runtime inventory.names = .ok inventory := by
  obtain ⟨short, valid, rfl⟩ := canonicalToolInventory_ok.mp made
  have names : ∀ name ∈ (inventoryOf runtime input).names, isToolName name = true := by
    intro name member
    obtain ⟨given, listed, rfl⟩ := List.mem_map.mp (mem_sortedSet.mp member)
    exact valid given listed
  have trimmedNames : (inventoryOf runtime input).names.map trimmed = (inventoryOf runtime input).names :=
    (List.map_congr_left fun name member => isToolName_trimmed (names name member)).trans
      (List.map_id _)
  have fewer : (inventoryOf runtime input).names.length ≤ 256 := by
    have subset : (inventoryOf runtime input).names ⊆ input.map trimmed := fun name member =>
      mem_sortedSet.mp member
    have bound := (List.subperm_of_subset (sortedSet_nodup (input.map trimmed)) subset).length_le
    rw [List.length_map] at bound
    exact Nat.le_trans bound short
  rw [canonicalToolInventory_ok]
  refine ⟨fewer, fun name member => ?_, ?_⟩
  · rw [isToolName_trimmed (names name member)]
    exact names name member
  · have again : sortedSet ((inventoryOf runtime input).names.map trimmed) = (inventoryOf runtime input).names := by
      rw [trimmedNames]
      exact sortedSet_idempotent _
    exact inventoryOf_congr again.symm

/-- The letters, digits and marks that both a name and an encoded text may hold. -/
def isPlainChar (c : Char) : Bool :=
  isAlphanumeric c || ['_', '.', '-'].contains c

/-- The qualified key of the pair is a name for the gateway. -/
structure FitsGrammar (mcpId toolName : String) : Prop where
  opens : mcpId.toList.head?.any isAlphanumeric = true
  server : ∀ c ∈ mcpId.toList, isPlainChar c = true
  tool : ∀ c ∈ toolName.toList, isPlainChar c = true
  short : mcpId.toList.length + toolName.toList.length ≤ 199

theorem isUnreserved_of_plain {c : Char} (plain : isPlainChar c = true) : isUnreserved c = true := by
  simp only [isPlainChar, isAlphanumeric, Bool.or_eq_true,
    decide_eq_true_eq, List.contains_eq_mem, List.mem_cons, List.not_mem_nil, or_false] at plain
  rcases plain with letter | rfl | rfl | rfl
  · simp [isUnreserved, letter]
  all_goals decide

theorem isPlainChar_iff {c : Char} :
    isPlainChar c = true ↔ ∀ other ∈ percentEncodedChar c, isNameChar other = true := by
  have percent : isNameChar '%' = false := by decide
  by_cases unreserved : isUnreserved c = true
  · have small := isUnreserved_ascii unreserved
    have table : ∀ code : Fin 128, isUnreserved (Char.ofNat code.val) = true →
        isPlainChar (Char.ofNat code.val) = isNameChar (Char.ofNat code.val) := by decide
    have same := table ⟨c.toNat, small⟩
    simp only [Char.ofNat_toNat] at same
    rw [percentEncodedChar, if_pos unreserved, same unreserved]
    simp
  · have plain : isPlainChar c = false := Bool.eq_false_iff.mpr fun plain => unreserved (isUnreserved_of_plain plain)
    obtain ⟨byte, bytes, encoded⟩ := List.exists_cons_of_ne_nil (String.utf8EncodeChar_ne_nil (c := c))
    rw [percentEncodedChar, if_neg unreserved, plain, encoded]
    simp [percentEncodedByte, percent]

theorem encoded_nameChars {text : String} :
    (∀ c ∈ (encodeURIComponent text).toList, isNameChar c = true) ↔ ∀ c ∈ text.toList, isPlainChar c = true := by
  rw [encodeURIComponent, String.toList_ofList]
  constructor
  · intro named c member
    exact isPlainChar_iff.mpr fun other written =>
      named other (List.mem_flatMap.mpr ⟨c, member, written⟩)
  · intro plain other written
    obtain ⟨c, member, inside⟩ := List.mem_flatMap.mp written
    exact isPlainChar_iff.mp (plain c member) other inside

theorem encoded_plain {text : String} (plain : ∀ c ∈ text.toList, isPlainChar c = true) :
    (encodeURIComponent text).toList = text.toList := by
  rw [encodeURIComponent, String.toList_ofList]
  have single : ∀ c ∈ text.toList, percentEncodedChar c = [c] := by
    intro c member
    rw [percentEncodedChar, if_pos (isUnreserved_of_plain (plain c member))]
  rw [List.flatMap_congr single]
  exact List.flatMap_singleton' _

theorem isToolName_key {mcpId toolName : String} :
    isToolName (qualifiedToolKey mcpId toolName) = true ↔ FitsGrammar mcpId toolName := by
  have slash : isNameChar '/' = true := by decide
  rw [isToolName_iff, qualifiedToolKey_toList]
  simp only [List.forall_mem_append, List.forall_mem_cons, slash, true_and, encoded_nameChars]
  have opening : ∀ text rest : List Char,
      (text ++ '/' :: rest).head?.any isAlphanumeric = text.head?.any isAlphanumeric := by
    intro text rest
    cases text <;> rfl
  constructor
  · rintro ⟨short, opens, server, tool⟩
    rw [encoded_plain server, encoded_plain tool, List.length_append, List.length_cons] at short
    rw [encoded_plain server, opening] at opens
    exact ⟨opens, server, tool, by omega⟩
  · rintro ⟨opens, server, tool, short⟩
    rw [encoded_plain server, encoded_plain tool, List.length_append, List.length_cons, opening]
    exact ⟨by omega, opens, server, tool⟩

variable {params : BuildEffectiveToolInventoryParams} {inventory : EffectiveToolInventory}

/-- The pair may be called: it was discovered, and every restriction admits it. -/
def Callable (runtime : Runtime) (params : BuildEffectiveToolInventoryParams) (pair : String × String) : Prop :=
  Discovered params.scopedTools pair.1 pair.2 ∧ Admitted runtime params pair.1 pair.2

/-- At most 256 pairs may be called, and each of them is spelled in plain characters. -/
structure Reportable (runtime : Runtime) (params : BuildEffectiveToolInventoryParams) : Prop where
  few : ∀ pairs : List (String × String), pairs.Nodup →
    (∀ pair ∈ pairs, Callable runtime params pair) → pairs.length ≤ 256
  plain : ∀ pair, Callable runtime params pair → FitsGrammar pair.1 pair.2

/-- The gateway's inventory of the reported keys has the fingerprint of the worker. -/
def Agrees (runtime : Runtime) (inventory : EffectiveToolInventory) : Prop :=
  ∃ canonical, canonicalToolInventory runtime inventory.allowedToolKeys = .ok canonical ∧
    canonical.fingerprint = "sha256:" ++ inventory.namesFingerprint

def allowedPairs (runtime : Runtime) (params : BuildEffectiveToolInventoryParams) : List (String × String) :=
  (allowedTools runtime params).map fun entry => (entry.mcpId, entry.toolName)

theorem allowedPairs_keys :
    (allowedPairs runtime params).map (fun pair => qualifiedToolKey pair.1 pair.2) =
      (allowedTools runtime params).map DiscoveredTool.toolKey := by
  rw [allowedPairs, List.map_map]
  rfl

theorem mem_allowedPairs {pair : String × String} :
    pair ∈ allowedPairs runtime params ↔ Callable runtime params pair := by
  rw [Callable, ← allowedKey_iff, ← allowedPairs_keys, List.mem_map]
  constructor
  · intro member
    exact ⟨pair, member, rfl⟩
  · rintro ⟨other, member, same⟩
    obtain ⟨server, name⟩ := qualifiedToolKey_inj.mp same
    rwa [← Prod.ext server name]

theorem allowedPairs_nodup : (allowedPairs runtime params).Nodup := by
  have keys : ((allowedTools runtime params).map DiscoveredTool.toolKey).Nodup := by
    rw [List.nodup_iff_count_eq_one]
    intro key member
    rw [← allowedPairs_keys, List.mem_map] at member
    obtain ⟨pair, allowed, rfl⟩ := member
    have once := discovered_listed_once runtime (mem_allowedPairs.mp allowed).1
    have inside : qualifiedToolKey pair.1 pair.2 ∈ (allowedTools runtime params).map DiscoveredTool.toolKey := by
      rw [← allowedPairs_keys]
      exact List.mem_map.mpr ⟨pair, allowed, rfl⟩
    have positive := List.count_pos_iff.mpr inside
    rw [List.count_append] at once
    omega
  rw [← allowedPairs_keys] at keys
  exact List.Nodup.of_map _ keys

theorem agrees_iff (built : buildEffectiveToolInventory runtime params = .ok inventory) :
    Agrees runtime inventory ↔ Reportable runtime params := by
  obtain ⟨keys, -, fingerprint⟩ := built_lists built
  rw [← allowedPairs_keys] at keys
  have names : ∀ pair, Callable runtime params pair → (qualifiedToolKey pair.1 pair.2) ∈
      inventory.allowedToolKeys := by
    intro pair callable
    rw [keys]
    exact List.mem_map.mpr ⟨pair, mem_allowedPairs.mpr callable, rfl⟩
  unfold Agrees
  constructor
  · rintro ⟨canonical, made, -⟩
    obtain ⟨short, valid, -⟩ := canonicalToolInventory_ok.mp made
    refine ⟨?_, ?_⟩
    · intro pairs once callable
      have subset : pairs ⊆ allowedPairs runtime params := fun pair member =>
        mem_allowedPairs.mpr (callable pair member)
      have bound := (List.subperm_of_subset once subset).length_le
      rw [keys, List.length_map] at short
      omega
    · intro pair callable
      have fits := valid _ (names pair callable)
      rw [trimmed_qualifiedToolKey] at fits
      exact isToolName_key.mp fits
  · intro reportable
    have short : inventory.allowedToolKeys.length ≤ 256 := by
      rw [keys, List.length_map]
      exact reportable.few _ allowedPairs_nodup fun pair member => mem_allowedPairs.mp member
    have valid : ∀ name ∈ inventory.allowedToolKeys, isToolName (trimmed name) = true := by
      intro name member
      rw [keys, List.mem_map] at member
      obtain ⟨pair, allowed, rfl⟩ := member
      rw [trimmed_qualifiedToolKey]
      exact isToolName_key.mpr (reportable.plain pair (mem_allowedPairs.mp allowed))
    refine ⟨_, canonicalToolInventory_ok.mpr ⟨short, valid, rfl⟩, ?_⟩
    rw [fingerprint]
    rfl

theorem namesFingerprint_injective (injective : Function.Injective runtime.sha256)
    {others : BuildEffectiveToolInventoryParams} {other : EffectiveToolInventory}
    (built : buildEffectiveToolInventory runtime params = .ok inventory)
    (too : buildEffectiveToolInventory runtime others = .ok other)
    (same : inventory.namesFingerprint = other.namesFingerprint) (key : String) :
    key ∈ inventory.allowedToolKeys ↔ key ∈ other.allowedToolKeys := by
  obtain ⟨keys, -, fingerprint⟩ := built_lists built
  obtain ⟨otherKeys, -, otherFingerprint⟩ := built_lists too
  have untouched : ∀ (given : BuildEffectiveToolInventoryParams),
      ((allowedTools runtime given).map DiscoveredTool.toolKey).map trimmed =
        (allowedTools runtime given).map DiscoveredTool.toolKey := by
    intro given
    rw [List.map_map]
    exact List.map_congr_left fun entry _ => trimmed_qualifiedToolKey _ _
  rw [fingerprint, otherFingerprint] at same
  have sets := names_injective (injective same)
  rw [keys, otherKeys, untouched, untouched, ← keys, ← otherKeys] at sets
  exact sortedSet_eq_iff.mp sets key

/-- A report that says what another one says, however its names are listed. -/
structure SameReport (first second : InventoryTruthInput) : Prop where
  key : first.key = second.key
  release : first.releaseId = second.releaseId
  sequence : first.releaseSequence = second.releaseSequence
  capability : first.capabilitySnapshotDigest = second.capabilitySnapshotDigest
  names : ∀ name, name ∈ first.toolNames.map trimmed ↔ name ∈ second.toolNames.map trimmed

/-- The names are an inventory, and the fingerprint is theirs. -/
structure Valid (runtime : Runtime) (input : InventoryTruthInput) : Prop where
  inventory : canonicalToolInventory runtime input.toolNames =
    .ok (inventoryOf runtime input.toolNames)
  fingerprint : input.fingerprint = (inventoryOf runtime input.toolNames).fingerprint

/-- The row keeps what the report said. -/
structure RowOf (runtime : Runtime) (row : InventorySnapshot) (input : InventoryTruthInput) :
    Prop where
  key : row.key = input.key
  release : row.releaseId = input.releaseId
  sequence : row.releaseSequence = input.releaseSequence
  capability : row.capabilitySnapshotDigest = input.capabilitySnapshotDigest
  fingerprint : row.inventoryFingerprint = (inventoryOf runtime input.toolNames).fingerprint
  names : canonicalToolInventory runtime row.toolNames = .ok (inventoryOf runtime input.toolNames)

variable {store before after : ReadbackStore} {input other : InventoryTruthInput}
variable {observedAt : Int} {row : InventorySnapshot}

theorem find?_of_mem (member : row ∈ store.inventories) : find? store row.key = some row := by
  cases found : find? store row.key with
  | none => exact absurd (List.mem_map_of_mem member) (find?_none found)
  | some held =>
    have same := List.find?_some found
    have listed := List.mem_of_find?_eq_some found
    rw [List.inj_on_of_nodup_map store.once listed member (by simpa using same)]

theorem agreesWith_iff (key : row.key = input.key) :
    agreesWith runtime input (inventoryOf runtime input.toolNames) row = true ↔ RowOf runtime row input := by
  unfold agreesWith
  simp only [Bool.and_eq_true, decide_eq_true_eq]
  constructor
  · rintro ⟨⟨⟨⟨release, sequence⟩, capability⟩, fingerprint⟩, names⟩
    refine ⟨key, release, sequence, capability, fingerprint, ?_⟩
    split at names
    · cases names
    · rename_i existing made
      have same := names_injective (by simpa using names)
      obtain ⟨-, -, shape⟩ := canonicalToolInventory_ok.mp made
      rw [made, shape]
      rw [shape] at same
      congr 1
      exact inventoryOf_congr same
  · intro kept
    refine ⟨⟨⟨⟨kept.release, kept.sequence⟩, kept.capability⟩, kept.fingerprint⟩, ?_⟩
    rw [kept.names]
    simp

theorem compareWithPrior_ok :
    compareWithPrior runtime input (inventoryOf runtime input.toolNames) store = .ok after ↔
      after = store ∧ ∃ row ∈ store.inventories, RowOf runtime row input := by
  unfold compareWithPrior
  split
  · rename_i agrees
    obtain ⟨row, found, same⟩ := (Option.any_eq_true _ _).mp agrees
    have key : row.key = input.key := by simpa using List.find?_some found
    have kept := (agreesWith_iff key).mp same
    constructor
    · intro made
      cases made
      exact ⟨rfl, row, List.mem_of_find?_eq_some found, kept⟩
    · rintro ⟨rfl, -⟩
      rfl
  · rename_i differs
    constructor
    · intro made
      cases made
    · rintro ⟨-, row, member, kept⟩
      apply absurd _ differs
      rw [← kept.key, find?_of_mem member]
      exact (agreesWith_iff kept.key).mpr kept

theorem insertTruth_ok (made : canonicalToolInventory runtime input.toolNames =
      .ok (inventoryOf runtime input.toolNames))
    (fingerprint : input.fingerprint = (inventoryOf runtime input.toolNames).fingerprint)
    (inserted : insertTruth runtime input (inventoryOf runtime input.toolNames) observedAt store = .ok after) :
    (after = store ∧ ∃ row ∈ store.inventories, RowOf runtime row input) ∨
      input.key ∉ store.inventories.map InventorySnapshot.key ∧
        ∃ row, RowOf runtime row input ∧ after.inventories = store.inventories ++ [row] := by
  unfold insertTruth at inserted
  split at inserted
  · split at inserted
    · exact .inl (compareWithPrior_ok.mp inserted)
    · rename_i absent
      cases inserted
      exact .inr ⟨find?_none absent, _, ⟨rfl, rfl, rfl, rfl, fingerprint, canonicalToolInventory_names made⟩, rfl⟩
  · cases inserted

theorem record_ok (accepted : recordAgentEffectiveToolInventoryTruth runtime input observedAt store = .ok after) :
    Valid runtime input ∧ ((after = store ∧ ∃ row ∈ store.inventories, RowOf runtime row input) ∨
        input.key ∉ store.inventories.map InventorySnapshot.key ∧
          ∃ row, RowOf runtime row input ∧ after.inventories = store.inventories ++ [row]) := by
  obtain ⟨inventory, made, rest⟩ := Transaction.except_bind_ok.mp accepted
  obtain ⟨-, -, shape⟩ := canonicalToolInventory_ok.mp made
  subst shape
  split at rest
  · cases rest
  · rename_i matched
    have fingerprint := not_not.mp matched
    refine ⟨⟨made, fingerprint⟩, ?_⟩
    split at rest
    · exact insertTruth_ok made fingerprint rest
    · exact .inl (compareWithPrior_ok.mp rest)

theorem record_again (valid : Valid runtime input) (member : row ∈ store.inventories)
    (kept : RowOf runtime row input) :
    recordAgentEffectiveToolInventoryTruth runtime input observedAt store = .ok store := by
  have compared : compareWithPrior runtime input (inventoryOf runtime input.toolNames) store =
      .ok store := compareWithPrior_ok.mpr ⟨rfl, row, member, kept⟩
  have found := find?_of_mem member
  rw [kept.key] at found
  have checked : passesChecks input.key input.releaseSequence input.capabilitySnapshotDigest
      input.fingerprint = true := by
    rw [← kept.key, ← kept.sequence, ← kept.capability, valid.fingerprint, ← kept.fingerprint]
    exact row.checked
  have inserted : insertTruth runtime input (inventoryOf runtime input.toolNames) observedAt store = .ok store := by
    unfold insertTruth
    rw [dif_pos checked]
    split
    · exact compared
    · rename_i absent
      rw [found] at absent
      cases absent
  unfold recordAgentEffectiveToolInventoryTruth
  rw [valid.inventory]
  simp only [bind, Except.bind, ne_eq, valid.fingerprint, not_true_eq_false, if_false, inserted, compared, ite_self]

theorem record_refused (member : row ∈ store.inventories) (kept : RowOf runtime row input)
    (key : other.key = input.key) (different : ¬ SameReport other input) :
    ∃ fault, recordAgentEffectiveToolInventoryTruth runtime other observedAt store = .error fault := by
  cases recorded : recordAgentEffectiveToolInventoryTruth runtime other observedAt store with
  | error fault => exact ⟨fault, rfl⟩
  | ok after =>
    obtain ⟨-, ⟨-, prior, listed, others⟩ | ⟨absent, -⟩⟩ := record_ok recorded
    · have same : prior = row := by
        apply List.inj_on_of_nodup_map store.once listed member
        rw [others.key, kept.key, key]
      subst same
      have inventories := others.names.symm.trans kept.names
      have sets : sortedSet (other.toolNames.map trimmed) = sortedSet (input.toolNames.map trimmed) :=
        congrArg CanonicalInventory.names (Except.ok.inj inventories)
      exact absurd ⟨key, others.release.symm.trans kept.release, others.sequence.symm.trans kept.sequence,
        others.capability.symm.trans kept.capability, sortedSet_eq_iff.mp sets⟩ different
    · rw [key, ← kept.key] at absent
      exact absurd (List.mem_map_of_mem member) absent

theorem step_keeps (event : ReadbackEvent) (member : row ∈ store.inventories) :
    row ∈ (readbackStep runtime store event).inventories := by
  cases event with
  | release applies capabilities => exact member
  | report input observedAt =>
    unfold readbackStep
    dsimp only
    split
    · rename_i after recorded
      obtain ⟨-, ⟨rfl, -⟩ | ⟨-, added, -, stored⟩⟩ := record_ok recorded
      · exact member
      · rw [stored]
        exact List.mem_append_left _ member
    · exact member

theorem later_keeps (later : (readbackMachine runtime).Later unrestricted before after)
    (member : row ∈ before.inventories) : row ∈ after.inventories := by
  induction later with
  | refl => exact member
  | tail _ moved ih =>
    obtain ⟨event, -, stepped⟩ := moved
    cases stepped
    exact step_keeps event ih

/-- What an accepted report leaves behind, in every later state: its row, which the same report
is accepted for and any other one refused. -/
structure Settled (runtime : Runtime) (input : InventoryTruthInput) (later : ReadbackStore) :
    Prop where
  stored : ∃ row ∈ later.inventories, RowOf runtime row input
  again : ∀ same observedAt, SameReport same input → Valid runtime same →
    recordAgentEffectiveToolInventoryTruth runtime same observedAt later = .ok later
  itself : ∀ observedAt,
    recordAgentEffectiveToolInventoryTruth runtime input observedAt later = .ok later
  refused : ∀ other observedAt, other.key = input.key → ¬ SameReport other input →
    (∃ fault, recordAgentEffectiveToolInventoryTruth runtime other observedAt later =
      .error fault) ∧ readbackStep runtime later (.report other observedAt) = later

theorem RowOf.same (kept : RowOf runtime row input) (alike : SameReport other input) : RowOf runtime row other := by
  have inventories : inventoryOf runtime other.toolNames = inventoryOf runtime input.toolNames :=
    inventoryOf_congr (sortedSet_eq_iff.mpr alike.names)
  refine ⟨kept.key.trans alike.key.symm, kept.release.trans alike.release.symm,
    kept.sequence.trans alike.sequence.symm, kept.capability.trans alike.capability.symm, ?_, ?_⟩
  · rw [inventories]
    exact kept.fingerprint
  · rw [inventories]
    exact kept.names

theorem accepted_settled {later : ReadbackStore}
    (accepted : recordAgentEffectiveToolInventoryTruth runtime input observedAt before = .ok after)
    (happened : (readbackMachine runtime).Later unrestricted after later) : Settled runtime input later := by
  have valid := (record_ok accepted).1
  have stored : ∃ row ∈ after.inventories, RowOf runtime row input := by
    obtain ⟨-, ⟨rfl, row⟩ | ⟨-, row, kept, added⟩⟩ := record_ok accepted
    · exact row
    · exact ⟨row, added ▸ List.mem_append_right _ List.mem_cons_self, kept⟩
  obtain ⟨row, member, kept⟩ := stored
  have remains := later_keeps happened member
  refine ⟨⟨row, remains, kept⟩, ?_, ?_, ?_⟩
  · intro same observedAt alike sound
    exact record_again sound remains (kept.same alike)
  · intro observedAt
    exact record_again valid remains kept
  · intro other observedAt key different
    obtain ⟨fault, refused⟩ := record_refused remains kept key different
    refine ⟨⟨fault, refused⟩, ?_⟩
    simp only [readbackStep, refused]

/-- The gateway takes a worker's inventory just where it is reportable; fingerprints tell sets
of names apart; and the first report under an authority settles it. -/
theorem inventories_agree (runtime : Runtime) (injective : Function.Injective runtime.sha256) :
    (∀ params inventory, buildEffectiveToolInventory runtime params = .ok inventory →
      (Agrees runtime inventory ↔ Reportable runtime params)) ∧ (∀ params inventory others other,
      buildEffectiveToolInventory runtime params = .ok inventory →
      buildEffectiveToolInventory runtime others = .ok other → inventory.namesFingerprint = other.namesFingerprint →
        ∀ key, key ∈ inventory.allowedToolKeys ↔ key ∈ other.allowedToolKeys) ∧
    (∀ names others first second, canonicalToolInventory runtime names = .ok first →
      canonicalToolInventory runtime others = .ok second →
      first.fingerprint = second.fingerprint → first.names = second.names) ∧ ∀ input observedAt before after later,
      recordAgentEffectiveToolInventoryTruth runtime input observedAt before = .ok after →
      (readbackMachine runtime).Later unrestricted after later → Settled runtime input later := by
  refine ⟨fun params inventory built => agrees_iff built, ?_, ?_, ?_⟩
  · intro params inventory others other built too same
    exact namesFingerprint_injective injective built too same
  · intro names others first second made too same
    obtain ⟨-, -, rfl⟩ := canonicalToolInventory_ok.mp made
    obtain ⟨-, -, rfl⟩ := canonicalToolInventory_ok.mp too
    exact digest_injective injective same
  · intro input observedAt before after later accepted happened
    exact accepted_settled accepted happened

def oneTool (name : String) : BuildEffectiveToolInventoryParams where
  scopedTools := ⟨[("github", [namedTool name])], List.nodup_singleton _⟩
  releaseState := .legacyUnenrolled
  now := 0

/-- The worker lists the tool, and the gateway takes its key for no name. -/
theorem blank_name_not_agreed :
    ∃ inventory, buildEffectiveToolInventory plainRuntime (oneTool "get pr") = .ok inventory ∧
      inventory.allowedToolKeys = ["github/get%20pr"] ∧ ¬ Agrees plainRuntime inventory := by
  have buildable : Buildable plainRuntime (oneTool "get pr").scopedTools :=
    ⟨by decide, by decide, by decide, by decide⟩
  obtain ⟨inventory, built⟩ := buildable_returns buildable
  have keys : inventory.allowedToolKeys = ["github/get%20pr"] := by
    rw [(built_lists built).1]
    decide
  refine ⟨inventory, built, keys, ?_⟩
  rintro ⟨canonical, made, -⟩
  have valid := (canonicalToolInventory_ok.mp made).2.1 "github/get%20pr" (by simp [keys])
  revert valid
  decide

theorem inventories_agree_of_plain_name :
    ∃ inventory, buildEffectiveToolInventory plainRuntime (oneTool "get_pr") = .ok inventory ∧
      Reportable plainRuntime (oneTool "get_pr") ∧ Agrees plainRuntime inventory := by
  have buildable : Buildable plainRuntime (oneTool "get_pr").scopedTools :=
    ⟨by decide, by decide, by decide, by decide⟩
  obtain ⟨inventory, built⟩ := buildable_returns buildable
  have keys : inventory.allowedToolKeys = ["github/get_pr"] := by
    rw [(built_lists built).1]
    decide
  have valid : ∀ name ∈ inventory.allowedToolKeys, isToolName (trimmed name) = true := by
    rw [keys]
    decide
  have agrees : Agrees plainRuntime inventory := by
    refine ⟨_, canonicalToolInventory_ok.mpr ⟨by simp [keys], valid, rfl⟩, ?_⟩
    rw [(built_lists built).2.2]
    rfl
  have iff_reportable := (inventories_agree plainRuntime fun _ _ same => same).1 _ inventory built
  exact ⟨inventory, built, iff_reportable.mp agrees, agrees⟩

end Lobu.Tools
