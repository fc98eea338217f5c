import Lobu.Foundation.KeyOrder

namespace Lobu.Foundation.Json

/-! # Objects built member by member

An object literal that takes its members from another object, some of them under a
condition, has the other's canonical form when it leaves none of them out.
-/

/-- An object literal; a member without a value is left out. -/
def ofMembers (members : List (String × Option Json)) : Json :=
  .object (members.filterMap fun member => member.2.map fun value => (member.1, value))

/-- A member that is there under a condition. -/
def memberIf (condition : Bool) (value : Option Json) : Option Json :=
  if condition then value else none

/-- Two values, or two missing ones, with one canonical form. -/
def Alike (first second : Option Json) : Prop :=
  first.map canonicalize = second.map canonicalize

@[simp] theorem Alike.refl (value : Option Json) : Alike value value := rfl

theorem alike_some {first second : Json} :
    Alike (some first) (some second) ↔ first.canonicalize = second.canonicalize :=
  Option.some_inj

section Lookup

universe u

variable {α : Type u} {entries : List (String × α)} {name : String} {value : α}

theorem mem_iff_lookup (once : (entries.map Prod.fst).Nodup) :
    (name, value) ∈ entries ↔ entries.lookup name = some value := by
  constructor
  · intro member
    obtain ⟨before, after, rfl⟩ := List.append_of_mem member
    rw [List.lookup_eq_some_iff]
    refine ⟨before, after, rfl, fun entry earlier => ?_⟩
    rw [bne_iff_ne]
    intro same
    rw [List.map_append, List.nodup_append] at once
    exact once.2.2 entry.1 (List.mem_map_of_mem earlier) name List.mem_cons_self same.symm
  · intro found
    obtain ⟨before, after, rfl, _⟩ := List.lookup_eq_some_iff.mp found
    exact List.mem_append_right _ List.mem_cons_self

end Lookup

variable {fields : List (String × Json)} {members : List (String × Option Json)}

theorem lookup_of_namesOnce {name : String} {value : Json}
    (once : (Json.object fields).namesOnce = true) (found : fields.lookup name = some value) :
    value.namesOnce = true := by
  rw [namesOnce_object] at once
  exact once.2 (name, value) ((mem_iff_lookup once.1).mpr found)

theorem mem_ofMembers {field : String × Json} :
    field ∈ members.filterMap (fun member => member.2.map fun value => (member.1, value)) ↔
      (field.1, some field.2) ∈ members := by
  rw [List.mem_filterMap]
  constructor
  · intro ⟨member, listed, built⟩
    obtain ⟨name, value⟩ := member
    cases value with
    | none => cases built
    | some value =>
      cases built
      exact listed
  · intro listed
    exact ⟨_, listed, rfl⟩

theorem names_ofMembers (names : (members.map Prod.fst).Nodup) :
    ((members.filterMap fun member => member.2.map fun value => (member.1, value)).map Prod.fst).Nodup := by
  refine List.Nodup.sublist ?_ names
  induction members with
  | nil => exact List.Sublist.refl _
  | cons member rest ih =>
    obtain ⟨name, value⟩ := member
    have shorter := ih (List.nodup_cons.mp names).2
    cases value with
    | none => exact shorter.cons _
    | some value => exact shorter.cons_cons _

theorem canonicalize_ofMembers (names : List String) (once : (fields.map Prod.fst).Nodup)
    (shape : members.map Prod.fst = names) (distinct : names.Nodup) (covered : ∀ field ∈ fields, field.1 ∈ names)
    (alike : ∀ member ∈ members, Alike member.2 (fields.lookup member.1)) :
    (ofMembers members).canonicalize = (Json.object fields).canonicalize := by
  subst shape
  have built := names_ofMembers distinct
  rw [ofMembers, canonicalize_eq_iff_perm built, List.perm_ext_iff_of_nodup]
  · intro entry
    obtain ⟨name, value⟩ := entry
    simp only [mapValues, List.mem_map, mem_ofMembers]
    constructor
    · intro copied
      obtain ⟨field, listed, same⟩ := copied
      have found := alike _ listed
      cases there : fields.lookup field.1 with
      | none => simp [Alike, there] at found
      | some source =>
        simp only [Alike, there, Option.map_some, Option.some.injEq] at found
        refine ⟨(field.1, source), (mem_iff_lookup once).mpr there, ?_⟩
        rw [← same, found]
    · intro copied
      obtain ⟨field, listed, same⟩ := copied
      obtain ⟨member, among, named⟩ := List.mem_map.mp (covered field listed)
      have there : fields.lookup member.1 = some field.2 := by
        rw [named]
        exact (mem_iff_lookup once).mp listed
      have found := alike member among
      obtain ⟨memberName, memberValue⟩ := member
      cases memberValue with
      | none => simp [Alike, there] at found
      | some copy =>
        simp only [Alike, there, Option.map_some, Option.some.injEq] at found
        refine ⟨(memberName, copy), among, ?_⟩
        rw [← same, ← found, ← named]
  · exact List.Nodup.of_map Prod.fst (by rwa [names_mapValues])
  · exact List.Nodup.of_map Prod.fst (by rwa [names_mapValues])

/-- A copy of an object without one of its keys. -/
def without (value : Json) (name : String) : Json :=
  match value with
  | .object fields => .object (fields.filter fun field => field.1 != name)
  | other => other

section Same

variable {first second : List (String × Json)}

theorem lookup_mapValues (change : Json → Json) (name : String) :
    (mapValues change fields).lookup name = (fields.lookup name).map change := by
  induction fields with
  | nil => rfl
  | cons field rest ih =>
    obtain ⟨fieldName, value⟩ := field
    rw [mapValues] at ih ⊢
    rw [List.map_cons, List.lookup_cons, List.lookup_cons]
    cases name == fieldName with
    | true => rfl
    | false => exact ih

theorem lookup_eq_of_perm (once : (first.map Prod.fst).Nodup) (same : first.Perm second)
    (name : String) : first.lookup name = second.lookup name := by
  have otherOnce := (same.map Prod.fst).nodup_iff.mp once
  refine Option.ext fun value => ?_
  rw [← mem_iff_lookup once, ← mem_iff_lookup otherOnce]
  exact same.mem_iff

theorem alike_lookup (once : (first.map Prod.fst).Nodup)
    (same : (Json.object first).canonicalize = (Json.object second).canonicalize) (name : String) :
    Alike (first.lookup name) (second.lookup name) := by
  have permuted := (canonicalize_eq_iff_perm once).mp same
  have found := lookup_eq_of_perm (by rwa [names_mapValues]) permuted name
  rwa [lookup_mapValues, lookup_mapValues] at found

theorem without_perm (name : String) (once : (first.map Prod.fst).Nodup)
    (same : (Json.object first).canonicalize = (Json.object second).canonicalize) :
    (mapValues canonicalize (first.filter fun field => field.1 != name)).Perm
      (mapValues canonicalize (second.filter fun field => field.1 != name)) := by
  have kept := ((canonicalize_eq_iff_perm once).mp same).filter fun field => field.1 != name
  have commutes : ∀ fields : List (String × Json),
      (mapValues canonicalize fields).filter (fun field => field.1 != name) =
        mapValues canonicalize (fields.filter fun field => field.1 != name) := by
    intro fields
    simp only [mapValues, List.filter_map]
    rfl
  rwa [commutes, commutes] at kept

end Same

theorem canonicalize_shape {value : Json} {fields : List (String × Json)}
    (same : value.canonicalize = (Json.object fields).canonicalize) : ∃ own, value = .object own := by
  cases value with
  | object own => exact ⟨own, rfl⟩
  | _ => cases same

theorem canonicalize_without {value other : Json} (name : String) (once : value.namesOnce = true)
    (same : value.canonicalize = other.canonicalize) :
    (value.without name).canonicalize = (other.without name).canonicalize := by
  cases value with
  | object first =>
    obtain ⟨second, rfl⟩ := canonicalize_shape same.symm
    have distinct := (namesOnce_object.mp once).1
    refine (canonicalize_eq_iff_perm ?_).mpr (without_perm name distinct same)
    exact distinct.sublist (List.filter_sublist.map Prod.fst)
  | _ =>
    cases other with
    | object second => cases same
    | _ => exact same

theorem alike_get? {value other : Json} (name : String) (once : value.namesOnce = true)
    (same : value.canonicalize = other.canonicalize) : Alike (value.get? name) (other.get? name) := by
  cases value with
  | object first =>
    obtain ⟨second, rfl⟩ := canonicalize_shape same.symm
    exact alike_lookup (namesOnce_object.mp once).1 same name
  | _ =>
    cases other with
    | object second => cases same
    | _ => exact .refl none

theorem namesOnce_get? {value : Json} {name : String} (once : value.namesOnce = true) :
    ∀ member ∈ value.get? name, member.namesOnce = true := by
  intro member found
  cases value with
  | object fields => exact lookup_of_namesOnce once found
  | _ => cases found

end Lobu.Foundation.Json
