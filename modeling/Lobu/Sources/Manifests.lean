import Lobu.Foundation.KeyOrder
import Lobu.Foundation.OrderedMap
import Lobu.Foundation.Text

namespace Lobu.Sources

open Lobu.Foundation

/-! # Manifests

`sources/cache.ts`: the files of a source with their hashes, the ref that stands for them, and
what changes from one manifest to the next.
-/

/-- The path and the SHA-256 of each file. -/
abbrev ManifestFiles := List (String × String)

/-- Paths come once and have no NUL; a hash is written in 64 digits. -/
structure IsFileSet (files : ManifestFiles) : Prop where
  once : (files.map Prod.fst).Nodup
  paths : ∀ file ∈ files, '\x00' ∉ file.1.toList
  hashes : ∀ file ∈ files, file.2.toList.length = 64

/-- SHA-256 of a text and of the contents of a file, in hexadecimal digits. -/
structure Hashes (Content : Type) where
  text : List Char → String
  file : Content → String
  text_injective : Function.Injective text
  file_length : ∀ content, (file content).toList.length = 64

structure FileDelta where
  added : List String
  modified : List String
  removed : List String

/-- The lines of which the ref is the hash. -/
def manifestLines (files : ManifestFiles) : List Char :=
  files.flatMap fun file => file.1.toList ++ '\x00' :: (file.2.toList ++ ['\n'])

def canonicalManifestRef {Content : Type} (hashes : Hashes Content) (files : ManifestFiles) : String :=
  hashes.text (manifestLines (sortFields files))

/-- `new Map(files.map((f) => [f.path, f.sha256]))` -/
def mapOf (files : ManifestFiles) : OrderedMap String String :=
  files.foldl (fun map file => map.set file.1 file.2) .empty

def diffManifests (prev next : ManifestFiles) : FileDelta where
  added := ((mapOf next).entries.filter fun file => ((mapOf prev).get? file.1).isNone).map Prod.fst
  modified := ((mapOf next).entries.filter fun file =>
    ((mapOf prev).get? file.1).any fun prevSha => prevSha != file.2).map Prod.fst
  removed := ((mapOf prev).entries.map Prod.fst).filter fun path => !(mapOf next).has path

theorem separator_injective {separator : Char} {before other after rest : List Char}
    (once : separator ∉ before) (otherOnce : separator ∉ other)
    (same : before ++ separator :: after = other ++ separator :: rest) : before = other ∧ after = rest := by
  induction before generalizing other with
  | nil =>
    cases other with
    | nil => exact ⟨rfl, (List.cons.inj same).2⟩
    | cons first other => exact absurd (List.mem_cons.mpr (.inl (List.cons.inj same).1)) otherOnce
  | cons first before ih =>
    cases other with
    | nil => exact absurd (List.mem_cons.mpr (.inl (List.cons.inj same).1.symm)) once
    | cons second other =>
      obtain ⟨rfl, tail⟩ := List.cons.inj same
      rw [List.mem_cons, not_or] at once otherOnce
      obtain ⟨rfl, left⟩ := ih once.2 otherOnce.2 tail
      exact ⟨rfl, left⟩

theorem manifestLines_injective {files others : ManifestFiles}
    (paths : ∀ file ∈ files, '\x00' ∉ file.1.toList) (otherPaths : ∀ file ∈ others, '\x00' ∉ file.1.toList)
    (sizes : ∀ file ∈ files, file.2.toList.length = 64) (otherSizes : ∀ file ∈ others, file.2.toList.length = 64)
    (same : manifestLines files = manifestLines others) : files = others := by
  have line : ∀ (file : String × String) (files : ManifestFiles), manifestLines (file :: files) =
      file.1.toList ++ '\x00' :: (file.2.toList ++ '\n' :: manifestLines files) := by
    intro file files
    simp [manifestLines]
  induction files generalizing others with
  | nil =>
    cases others with
    | nil => rfl
    | cons other others => simp [manifestLines] at same
  | cons file files ih =>
    cases others with
    | nil => simp [manifestLines] at same
    | cons other others =>
      rw [List.forall_mem_cons] at paths otherPaths sizes otherSizes
      rw [line, line] at same
      obtain ⟨path, rest⟩ := separator_injective paths.1 otherPaths.1 same
      obtain ⟨hash, tail⟩ := List.append_inj rest (sizes.1.trans otherSizes.1.symm)
      rw [ih paths.2 otherPaths.2 sizes.2 otherSizes.2 (List.cons.inj tail).2]
      rw [Prod.ext (String.toList_inj.mp path) (String.toList_inj.mp hash)]

section Refs

variable {Content : Type} (hashes : Hashes Content) {files others : ManifestFiles}

theorem canonicalManifestRef_eq_iff (isSet : IsFileSet files) (otherSet : IsFileSet others) :
    canonicalManifestRef hashes files = canonicalManifestRef hashes others ↔
      ∀ file, file ∈ files ↔ file ∈ others := by
  have perm : files.Perm others ↔ ∀ file, file ∈ files ↔ file ∈ others :=
    List.perm_ext_iff_of_nodup isSet.once.of_map otherSet.once.of_map
  rw [← perm]
  constructor
  · intro same
    have members := fun file => (sortFields_perm files).mem_iff (a := file)
    have otherMembers := fun file => (sortFields_perm others).mem_iff (a := file)
    have sorted : sortFields files = sortFields others :=
      manifestLines_injective (fun file member => isSet.paths file ((members file).mp member))
        (fun file member => otherSet.paths file ((otherMembers file).mp member))
        (fun file member => isSet.hashes file ((members file).mp member))
        (fun file member => otherSet.hashes file ((otherMembers file).mp member))
        (hashes.text_injective same)
    exact (sortFields_perm files).symm.trans (sorted ▸ sortFields_perm others)
  · intro same
    rw [canonicalManifestRef, sortFields_eq_of_perm isSet.once same]
    rfl

end Refs

theorem entries_foldl_set {files : ManifestFiles} {map : OrderedMap String String}
    (once : ((map.entries ++ files).map Prod.fst).Nodup) :
    (files.foldl (fun map file => map.set file.1 file.2) map).entries = map.entries ++ files := by
  induction files generalizing map with
  | nil => exact (List.append_nil _).symm
  | cons file files ih =>
    have absent : file.1 ∉ map.entries.map Prod.fst := by
      rw [List.map_append, List.nodup_append] at once
      exact fun member => once.2.2 _ member _ List.mem_cons_self rfl
    have added : (map.set file.1 file.2).entries = map.entries ++ [file] :=
      OrderedMap.putUnder_absent absent
    rw [List.foldl_cons, ih, added, List.append_assoc]
    · rfl
    · rw [added, List.append_assoc]
      exact once

theorem entries_mapOf {files : ManifestFiles} (once : (files.map Prod.fst).Nodup) : (mapOf files).entries = files :=
  entries_foldl_set once

/-- What has come, what is different and what is gone, each once. -/
structure IsDifference (prev next : ManifestFiles) (delta : FileDelta) : Prop where
  added : ∀ path, path ∈ delta.added ↔ prev.lookup path = none ∧ next.lookup path ≠ none
  modified : ∀ path, path ∈ delta.modified ↔
    prev.lookup path ≠ none ∧ next.lookup path ≠ none ∧ prev.lookup path ≠ next.lookup path
  removed : ∀ path, path ∈ delta.removed ↔ prev.lookup path ≠ none ∧ next.lookup path = none
  once : delta.added.Nodup ∧ delta.modified.Nodup ∧ delta.removed.Nodup

/-- The hashes after the change, those of the added and modified files taken from `next`. -/
def FileDelta.apply (delta : FileDelta) (prev next : ManifestFiles) (path : String) : Option String :=
  if path ∈ delta.removed then none
  else if path ∈ delta.added ∨ path ∈ delta.modified then next.lookup path
  else prev.lookup path

theorem mem_of_lookup {files : ManifestFiles} (once : (files.map Prod.fst).Nodup) {path hash : String} :
    (path, hash) ∈ files ↔ files.lookup path = some hash := by
  induction files with
  | nil => simp
  | cons file files ih =>
    rw [List.map_cons, List.nodup_cons] at once
    by_cases same : path = file.1
    · rw [List.lookup_cons, beq_iff_eq.mpr same, List.mem_cons]
      constructor
      · intro member
        rcases member with rfl | later
        · rfl
        · exact absurd (List.mem_map_of_mem later) (same ▸ once.1)
      · intro found
        exact .inl (Prod.ext same (Option.some.inj found).symm)
    · rw [List.lookup_cons, beq_false_of_ne same, List.mem_cons, ih once.2]
      exact or_iff_right fun first => same (congrArg Prod.fst first)

theorem mem_paths_filter {files : ManifestFiles} (once : (files.map Prod.fst).Nodup)
    {keeps : String × String → Bool} {path : String} :
    path ∈ (files.filter keeps).map Prod.fst ↔ ∃ hash, files.lookup path = some hash ∧ keeps (path, hash) = true := by
  constructor
  · intro member
    obtain ⟨file, inFiles, rfl⟩ := List.mem_map.mp member
    obtain ⟨listed, kept⟩ := List.mem_filter.mp inFiles
    exact ⟨file.2, (mem_of_lookup once).mp listed, kept⟩
  · intro ⟨hash, found, kept⟩
    exact List.mem_map.mpr ⟨_, List.mem_filter.mpr ⟨(mem_of_lookup once).mpr found, kept⟩, rfl⟩

theorem diffManifests_isDifference {prev next : ManifestFiles} (prevOnce : (prev.map Prod.fst).Nodup)
    (nextOnce : (next.map Prod.fst).Nodup) : IsDifference prev next (diffManifests prev next) := by
  have get : ∀ {files : ManifestFiles}, (files.map Prod.fst).Nodup → ∀ path,
      (mapOf files).get? path = files.lookup path := by
    intro files once path
    rw [OrderedMap.get?, entries_mapOf once]
  have sub : ∀ {files : ManifestFiles} (keeps : String × String → Bool), (files.map Prod.fst).Nodup →
      ((files.filter keeps).map Prod.fst).Nodup :=
    fun keeps once => once.sublist (List.filter_sublist.map _)
  simp only [diffManifests, entries_mapOf prevOnce, entries_mapOf nextOnce, get prevOnce]
  refine ⟨fun path => ?_, fun path => ?_, fun path => ?_, sub _ nextOnce, sub _ nextOnce, prevOnce.filter _⟩
  · rw [mem_paths_filter nextOnce, ← Option.isSome_iff_ne_none, Option.isSome_iff_exists]
    simp only [Option.isNone_iff_eq_none]
    constructor
    · intro listed
      obtain ⟨hash, found, new⟩ := listed
      exact ⟨new, hash, found⟩
    · intro listed
      obtain ⟨new, hash, found⟩ := listed
      exact ⟨hash, found, new⟩
  · rw [mem_paths_filter nextOnce]
    cases old : prev.lookup path <;> cases new : next.lookup path <;> simp [old]
  · rw [List.mem_filter, OrderedMap.has, get nextOnce, ← List.elem_iff, ← Option.isSome_iff_ne_none]
    rw [← get prevOnce path, ← OrderedMap.has]
    have listed : path ∈ prev.map Prod.fst ↔ (mapOf prev).has path = true := by
      rw [OrderedMap.has_iff_mem, entries_mapOf prevOnce]
    rw [List.elem_iff, listed]
    simp

section Difference

variable {prev next : ManifestFiles} {delta : FileDelta}

theorem IsDifference.disjoint (difference : IsDifference prev next delta) : delta.added.Disjoint delta.modified ∧
    delta.added.Disjoint delta.removed ∧ delta.modified.Disjoint delta.removed := by
  refine ⟨fun path inAdded inModified => ?_, fun path inAdded inRemoved => ?_, fun path inModified inRemoved => ?_⟩
  · exact ((difference.modified path).mp inModified).1 ((difference.added path).mp inAdded).1
  · exact ((difference.removed path).mp inRemoved).1 ((difference.added path).mp inAdded).1
  · exact ((difference.modified path).mp inModified).2.1 ((difference.removed path).mp inRemoved).2

theorem IsDifference.apply_eq (difference : IsDifference prev next delta) (path : String) :
    delta.apply prev next path = next.lookup path := by
  unfold FileDelta.apply
  split
  · rename_i gone
    exact ((difference.removed path).mp gone).2.symm
  · rename_i stays
    split
    · rfl
    · rename_i untouched
      rw [difference.added, difference.modified, difference.removed] at *
      by_cases old : prev.lookup path = none
      · by_cases new : next.lookup path = none
        · rw [old, new]
        · exact absurd (.inl ⟨old, new⟩) untouched
      · by_cases new : next.lookup path = none
        · exact absurd ⟨old, new⟩ stays
        · by_contra differ
          exact untouched (.inr ⟨old, new, differ⟩)

theorem isDifference_none (same : ∀ file, file ∈ prev ↔ file ∈ next)
    (prevOnce : (prev.map Prod.fst).Nodup) (nextOnce : (next.map Prod.fst).Nodup) :
    IsDifference prev next ⟨[], [], []⟩ := by
  have equal : ∀ path, prev.lookup path = next.lookup path := by
    intro path
    apply Option.ext
    intro hash
    rw [← mem_of_lookup prevOnce, ← mem_of_lookup nextOnce]
    exact same _
  refine ⟨fun path => ?_, fun path => ?_, fun path => ?_, List.nodup_nil, List.nodup_nil, List.nodup_nil⟩
  · rw [equal path]
    exact iff_of_false List.not_mem_nil fun new => new.2 new.1
  · exact iff_of_false List.not_mem_nil fun changed => changed.2.2 (equal path)
  · rw [equal path]
    exact iff_of_false List.not_mem_nil fun gone => gone.1 gone.2

end Difference

end Lobu.Sources
