import Lobu.Foundation.Words
import Lobu.Sources.Manifests

namespace Lobu.Sources

open Lobu.Foundation

/-! # A local directory as a source

`sources/local-file-source.ts` on a platform whose separator is `/`.
-/

abbrev Segment := List Char

/-- The names on the real paths of the source and of `.lobu-cache`. -/
structure Location where
  source : List Segment
  cache : List Segment
  named : ∀ segment ∈ source ++ cache, segment ≠ [] ∧ segment ≠ ['.', '.'] ∧ '/' ∉ segment

/-- `path.relative` of two real paths. -/
def relativeSegments : List Segment → List Segment → List Segment
  | [], target => target
  | start, [] => start.map fun _ => ['.', '.']
  | first :: start, second :: target =>
    if first = second then relativeSegments start target
    else (first :: start).map (fun _ => ['.', '.']) ++ second :: target

def Location.rel (location : Location) : List Char :=
  ['/'].intercalate (relativeSegments location.source location.cache)

def resolveCacheExclude (location : Location) (relPath : List Char) : Bool :=
  let rel := location.rel
  if rel = [] ∨ ['.', '.'].isPrefixOf rel ∨ (rel.splitOn '/').contains ['.', '.'] then false
  else decide (relPath = rel) || (rel ++ ['/']).isPrefixOf relPath

/-- The file is the cache directory or lies below it. -/
def Location.InCache (location : Location) (relPath : List Char) : Prop :=
  location.cache <+: location.source ++ relPath.splitOn '/'

instance (location : Location) (relPath : List Char) : Decidable (location.InCache relPath) :=
  inferInstanceAs (Decidable (_ <+: _))

/-- The source does not lie in the cache directory, and if this lies in the source then below a
directory whose name does not begin with two dots. -/
structure Location.Apart (location : Location) : Prop where
  outside : ¬ location.cache <+: location.source
  plain : ∀ first rest, location.cache = location.source ++ first :: rest → ¬ ['.', '.'] <+: first

theorem relativeSegments_append (source rest : List Segment) : relativeSegments source (source ++ rest) = rest := by
  induction source with
  | nil => cases rest <;> rfl
  | cons first source ih => rw [List.cons_append, relativeSegments, if_pos rfl, ih]

theorem relativeSegments_up {source cache : List Segment} (outside : ¬ source <+: cache) :
    ∃ rest, relativeSegments source cache = ['.', '.'] :: rest := by
  induction source generalizing cache with
  | nil => exact absurd (List.nil_prefix) outside
  | cons first source ih =>
    cases cache with
    | nil => exact ⟨_, rfl⟩
    | cons second cache =>
      rw [relativeSegments]
      by_cases same : first = second
      · rw [if_pos same]
        refine ih fun inside => outside ?_
        rw [same]
        exact (List.prefix_cons_inj second).mpr inside
      · rw [if_neg same]
        exact ⟨_, rfl⟩

theorem intercalate_begins (first : Segment) (rest : List Segment) : first <+: ['/'].intercalate (first :: rest) := by
  cases rest with
  | nil => exact ⟨[], by simp [List.intercalate]⟩
  | cons second rest =>
    rw [List.intercalate_cons_cons, List.append_assoc]
    exact List.prefix_append _ _

theorem dots_of_intercalate {first : Segment} {rest : List Segment} (filled : first ≠ [])
    (dots : ['.', '.'] <+: ['/'].intercalate (first :: rest)) : ['.', '.'] <+: first := by
  obtain ⟨tail, whole⟩ := intercalate_begins first rest
  cases first with
  | nil => contradiction
  | cons c more =>
    cases more with
    | nil =>
      cases rest with
      | nil => simp [List.intercalate] at dots
      | cons second rest =>
        rw [List.intercalate_cons_cons, List.append_assoc, List.singleton_append,
          List.singleton_append, List.cons_prefix_cons, List.cons_prefix_cons] at dots
        exact absurd dots.2.1 (by decide)
    | cons d more =>
      rw [← whole, List.cons_append, List.cons_append, List.cons_prefix_cons, List.cons_prefix_cons] at dots
      rw [← dots.1, ← dots.2.1]
      exact ⟨more, rfl⟩

theorem prefix_splitOn_iff {segments : List Segment} (filled : segments ≠ [])
    (plain : ∀ segment ∈ segments, '/' ∉ segment) (path : List Char) :
    segments <+: path.splitOn '/' ↔
      path = ['/'].intercalate segments ∨ ['/'].intercalate segments ++ ['/'] <+: path := by
  constructor
  · intro ⟨more, whole⟩
    have joined : ['/'].intercalate (path.splitOn '/') = path := List.intercalate_splitOn '/'
    rw [← whole] at joined
    by_cases nothing : more = []
    · rw [nothing, List.append_nil] at joined
      exact .inl joined.symm
    · rw [intercalate_append filled nothing] at joined
      exact .inr ⟨['/'].intercalate more, by rw [List.append_assoc]; exact joined⟩
  · intro begins
    rcases begins with rfl | ⟨rest, rfl⟩
    · exact (List.splitOn_intercalate '/' plain filled).symm ▸ List.prefix_refl segments
    · have joined : ['/'].intercalate (rest.splitOn '/') = rest := List.intercalate_splitOn '/'
      have whole : ['/'].intercalate segments ++ ['/'] ++ rest =
          ['/'].intercalate (segments ++ rest.splitOn '/') := by
        rw [intercalate_append filled (List.splitOn_ne_nil '/' rest), joined, List.append_assoc]
        rfl
      rw [whole, List.splitOn_intercalate '/' ?_ (by simp [filled])]
      · exact List.prefix_append _ _
      · intro segment member
        rcases List.mem_append.mp member with inFront | inRest
        · exact plain segment inFront
        · have piece : segment ∈ rest.splitOnP (· == '/') := inRest
          exact fun slash => absurd (mem_splitOnP piece '/' slash).1 (by decide)

theorem resolveCacheExclude_iff {location : Location} (apart : location.Apart) (relPath : List Char) :
    resolveCacheExclude location relPath = true ↔ location.InCache relPath := by
  by_cases inside : location.source <+: location.cache
  · obtain ⟨below, whole⟩ := inside
    have rel : location.rel = ['/'].intercalate below := by
      rw [Location.rel, ← whole, relativeSegments_append]
    cases below with
    | nil => exact absurd ⟨[], by rw [List.append_nil, ← whole, List.append_nil]⟩ apart.outside
    | cons first rest =>
      have named : ∀ segment ∈ first :: rest, segment ≠ [] ∧ segment ≠ ['.', '.'] ∧ '/' ∉ segment :=
        fun segment member => location.named segment
          (List.mem_append_right _ (whole ▸ List.mem_append_right _ member))
      have split : location.rel.splitOn '/' = first :: rest := by
        rw [rel]
        exact List.splitOn_intercalate '/' (fun segment member => (named segment member).2.2) (List.cons_ne_nil _ _)
      have begins : first <+: location.rel := rel ▸ intercalate_begins first rest
      have resolved : ¬ (location.rel = [] ∨ ['.', '.'].isPrefixOf location.rel ∨
          (location.rel.splitOn '/').contains ['.', '.']) := by
        rw [split, List.isPrefixOf_iff_prefix, List.contains_iff_mem]
        intro up
        have filled := (named first List.mem_cons_self).1
        rcases up with nothing | dots | up
        · rw [nothing, List.prefix_nil] at begins
          exact filled begins
        · exact apart.plain first rest whole.symm (dots_of_intercalate filled (rel ▸ dots))
        · exact (named _ up).2.1 rfl
      rw [resolveCacheExclude, if_neg resolved, Bool.or_eq_true, decide_eq_true_eq,
        List.isPrefixOf_iff_prefix, Location.InCache, ← whole, List.prefix_append_right_inj,
        prefix_splitOn_iff (List.cons_ne_nil _ _) fun segment member => (named segment member).2.2, rel]
  · obtain ⟨rest, up⟩ := relativeSegments_up inside
    have begins : ['.', '.'] <+: location.rel := by
      rw [Location.rel, up]
      exact intercalate_begins _ rest
    rw [resolveCacheExclude, if_pos (.inr (.inl (List.isPrefixOf_iff_prefix.mpr begins)))]
    refine iff_of_false Bool.false_ne_true fun inCache => ?_
    rcases List.prefix_or_prefix_of_prefix inCache (List.prefix_append _ _) with above | below
    · exact apart.outside above
    · exact inside below

section Runs

variable {Content : Type} (hashes : Hashes Content)

/-- The regular files below the source as the walk finds them. -/
structure LiveFiles (Content : Type) where
  files : List (String × Content)
  once : (files.map Prod.fst).Nodup
  paths : ∀ file ∈ files, '\x00' ∉ file.1.toList

/-- `recorded` holds what `writePerRefManifest` has written, the last first. -/
structure SourceState (Content : Type) where
  live : LiveFiles Content
  location : Location
  recorded : List (String × ManifestFiles)

def hashed (files : List (String × Content)) : ManifestFiles :=
  files.map fun file => (file.1, hashes.file file.2)

/-- What `listRelativeFiles` with `streamCopyAndHash` gives, and `collectFilesFromLive`. -/
def collectFiles (state : SourceState Content) : ManifestFiles :=
  hashed hashes (state.live.files.filter fun file => !resolveCacheExclude state.location file.1.toList)

/-- Between two calls the directory may become any other, with what the fetches write into the
cache, and the cache may move. -/
inductive SourceEvent (Content : Type) where
  | change (live : LiveFiles Content) (location : Location)
  | fetch

def SourceState.step (state : SourceState Content) : SourceEvent Content → SourceState Content
  | .change live location => { state with live := live, location := location }
  | .fetch =>
    let files := collectFiles hashes state
    { state with recorded := (canonicalManifestRef hashes files, files) :: state.recorded }

def SourceState.run (start : SourceState Content) (events : List (SourceEvent Content)) : SourceState Content :=
  events.foldl (SourceState.step hashes) start

def diffSinceRef (state : SourceState Content) (prevRef : String) : FileDelta :=
  let files := collectFiles hashes state
  if canonicalManifestRef hashes files = prevRef then ⟨[], [], []⟩
  else
    match state.recorded.lookup prevRef with
    | none => ⟨files.map Prod.fst, [], []⟩
    | some prev => diffManifests prev files

/-- The live files that are not in the cache directory. -/
def IsLiveOutside (state : SourceState Content) (files : ManifestFiles) : Prop :=
  ∀ path hash, files.lookup path = some hash ↔ ∃ content, (path, content) ∈ state.live.files ∧
    ¬ state.location.InCache path.toList ∧ hashes.file content = hash

variable {hashes} {state : SourceState Content}

theorem isFileSet_collectFiles : IsFileSet (collectFiles hashes state) := by
  have listed : ∀ file ∈ collectFiles hashes state, ∃ content, (file.1, content) ∈ state.live.files ∧
      hashes.file content = file.2 := by
    intro file member
    obtain ⟨live, isLive, rfl⟩ := List.mem_map.mp member
    exact ⟨live.2, List.mem_of_mem_filter isLive, rfl⟩
  refine ⟨?_, fun file member => ?_, fun file member => ?_⟩
  · rw [collectFiles, hashed, List.map_map]
    exact state.live.once.sublist (List.filter_sublist.map _)
  · obtain ⟨content, isLive, -⟩ := listed file member
    exact state.live.paths _ isLive
  · obtain ⟨content, -, hash⟩ := listed file member
    rw [← hash]
    exact hashes.file_length content

theorem collectFiles_outside (apart : state.location.Apart) :
    IsLiveOutside hashes state (collectFiles hashes state) := by
  intro path hash
  rw [← mem_of_lookup isFileSet_collectFiles.once, collectFiles, hashed, List.mem_map]
  simp only [List.mem_filter, Bool.not_eq_true', ← Bool.not_eq_true, resolveCacheExclude_iff apart]
  constructor
  · intro ⟨file, ⟨isLive, outside⟩, same⟩
    obtain ⟨rfl, rfl⟩ := Prod.mk.inj same
    exact ⟨file.2, isLive, outside, rfl⟩
  · intro ⟨content, isLive, outside, isHash⟩
    exact ⟨(path, content), ⟨isLive, outside⟩, by rw [isHash]⟩

/-- Every recorded manifest stands under the ref of its files. -/
def Recorded (hashes : Hashes Content) (state : SourceState Content) : Prop :=
  ∀ entry ∈ state.recorded, IsFileSet entry.2 ∧ entry.1 = canonicalManifestRef hashes entry.2

theorem recorded_run {start : SourceState Content} (recorded : Recorded hashes start)
    (events : List (SourceEvent Content)) : Recorded hashes (start.run hashes events) := by
  induction events generalizing start with
  | nil => exact recorded
  | cons event events ih =>
    refine ih ?_
    cases event with
    | change live location => exact recorded
    | fetch => exact List.forall_mem_cons.mpr ⟨⟨isFileSet_collectFiles, rfl⟩, recorded⟩

theorem diffSinceRef_isDifference (recorded : Recorded hashes state) {ref : String}
    {files : ManifestFiles} (found : state.recorded.lookup ref = some files) :
    IsDifference files (collectFiles hashes state) (diffSinceRef hashes state ref) := by
  obtain ⟨front, back, whole, -⟩ := List.lookup_eq_some_iff.mp found
  obtain ⟨isSet, isRef⟩ := recorded (ref, files) (by simp [whole])
  rw [diffSinceRef, found]
  split
  · rename_i same
    refine isDifference_none ?_ isSet.once isFileSet_collectFiles.once
    exact (canonicalManifestRef_eq_iff hashes isSet isFileSet_collectFiles).mp (isRef.symm.trans same.symm)
  · exact diffManifests_isDifference isSet.once isFileSet_collectFiles.once

/-- The delta since a recorded ref is the difference between its files and the live ones. -/
def DeltasExact (hashes : Hashes Content) (state : SourceState Content) : Prop :=
  ∀ ref files, state.recorded.lookup ref = some files →
    ∃ current, IsLiveOutside hashes state current ∧
      IsDifference files current (diffSinceRef hashes state ref)

end Runs

/-- A hash for examples: a text is its own, and every file has the same. -/
def plainHashes : Hashes Unit where
  text := String.ofList
  file _ := String.ofList (List.replicate 64 '0')
  text_injective _ _ same := String.ofList_injective same
  file_length _ := by simp

def sourceAt (cache : List Segment) (named : ∀ segment ∈ [['s']] ++ cache,
    segment ≠ [] ∧ segment ≠ ['.', '.'] ∧ '/' ∉ segment) : Location where
  source := [['s']]
  cache := cache
  named := named

def noFiles : LiveFiles Unit := ⟨[], List.nodup_nil, fun _ member => absurd member List.not_mem_nil⟩

end Lobu.Sources
