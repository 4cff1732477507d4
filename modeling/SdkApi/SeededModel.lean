import Mathlib.Data.List.Dedup
import SdkApi.RoleMiddleware
import SdkApi.Tables

/-!
# The authorization model and its seed

Every role and permission of the configuration is a grant. Grants are told
apart by their three names joined with bars, and each resource becomes a type
beside the two of its own.
-/

namespace SdkApi.SeededModel
open AssocLists GoStrings RoleMiddleware Tables List Function

structure PermissionDef where
  role : String
  resource : String
  actions : List String
  deriving DecidableEq

structure Config where
  rolePermissions : GoMap (List String) := []
  entries : List (List String × List String) := []

/-- A role, a resource and an action. -/
abbrev Grant := String × String × String

def grant (role perm : String) : Option Grant :=
  match splitPermission perm with
  | some (resource,action) =>
    if role = "" ∨ resource = "" ∨ action = "" then none else some (role,resource,action)
  | none => none

def grants (cfg : Config) : List Grant :=
  cfg.rolePermissions.flatMap (fun r => r.2.filterMap (grant r.1))++
    cfg.entries.flatMap fun e => e.1.flatMap fun role => e.2.filterMap (grant role)

def key (g : Grant) : String := g.1 ++ "|" ++ g.2.1 ++ "|" ++ g.2.2

def add (seen : List Grant) (g : Grant) : List Grant :=
  if key g ∈ seen.map key then seen else seen++[g]

def permission (g : Grant) : PermissionDef := ⟨g.1,g.2.1,[g.2.2]⟩

def collectPermissions (cfg : Config) : List PermissionDef :=
  ((grants cfg).foldl add []).map permission

/-- A type with the subjects of each relation, by type and relation. -/
structure TypeDefinition where
  type : String
  relations : GoMap (List (String × String)) := []

def resourceActions (ps : List PermissionDef) : List (String × String) :=
  ps.flatMap fun p => if p.resource = "" then [] else p.actions.map fun a => (p.resource,a)

/-- The map of `EnsureModel`, whose order does not matter. -/
def resources (rs : List (String × String)) : GoMap (List String) :=
  (rs.map Prod.fst).dedup.map fun r => (r,((rs.filter fun p => p.1 = r).map Prod.snd).dedup)

def ensureDefaultModel (resources : GoMap (List String)) : List TypeDefinition :=
  { type := "user" }::⟨"role",[("member",[("user","")])]⟩::resources.map fun r =>
    ⟨r.1,r.2.map fun a => ("can_" ++ a,[("role","member"),("user","")])⟩

def ensureModel (ps : List PermissionDef) : List TypeDefinition :=
  ensureDefaultModel (resources (resourceActions ps))

/-- The user, relation and object of each tuple that `SeedPermissions` writes. -/
def seedPermissions (ps : List PermissionDef) : List (String × String × String) :=
  ps.flatMap fun p => p.actions.map fun a =>
    ("role:" ++ p.role ++ "#member","can_" ++ a,p.resource ++ ":" ++ a)

def allows (user : String) (ref : String × String) : Bool :=
  hasPrefix user (ref.1 ++ ":") && (ref.2 = "" || hasSuffix user ("#" ++ ref.2))

/-- The type of the object has the relation, and the relation allows the user. -/
def Defined (model : List TypeDefinition) (t : String × String × String) : Prop :=
  ∃ d ∈ model, d.type = (cut t.2.2 ':').1 ∧ ∃ refs, (t.2.1,refs) ∈ d.relations ∧
    refs.any (allows t.1)

lemma collected (gs : List Grant) : ((gs.foldl add []).map key).Nodup ∧
    (∀ g ∈ gs.foldl add [], g ∈ gs) ∧ ∀ g ∈ gs, key g ∈ (gs.foldl add []).map key := by
  induction gs using List.reverseRecOn with
  | nil => simp
  | append_singleton gs g ih =>
    obtain ⟨hn, hm, hk⟩ := ih
    rw [foldl_append, foldl_cons, foldl_nil, add]
    split_ifs with hs
    · exact ⟨hn, fun x hx => by simp [hm x hx], by grind⟩
    · rw [map_append]
      exact ⟨hn.append (nodup_singleton _) (disjoint_singleton.mpr hs), by grind, by grind⟩

lemma grant_nonempty {role perm : String} {g : Grant} (h : grant role perm = some g) :
    g.2.1 ≠ "" ∧ ':' ∉ g.2.1.toList := by
  rw [grant, splitPermission, cut] at h
  split at h
  · rename_i resource action hl
    split at hl <;> cases hl
    rename_i hu
    split at hu <;> cases hu
    split_ifs at h with hne
    cases h
    refine ⟨fun h => hne (.inr (.inl h)),fun hm => ?_⟩
    rw [String.toList_ofList] at hm
    have ho := all_eq_true.mp all_takeWhile _ hm
    simp at ho
  · cases h

lemma mem_grants {cfg : Config} {g : Grant} (h : g ∈ grants cfg) :
    g.2.1 ≠ "" ∧ ':' ∉ g.2.1.toList := by
  simp only [grants, mem_append, mem_flatMap, mem_filterMap] at h
  rcases h with ⟨_,_,perm,_,hg⟩ | ⟨_,_,_,_,perm,_,hg⟩ <;> exact grant_nonempty hg

lemma mem_resources {rs : List (String × String)} {p : String × String} (h : p ∈ rs) :
    ∃ as, (p.1,as) ∈ resources rs ∧ p.2 ∈ as :=
  ⟨_,mem_map_of_mem (mem_dedup.mpr (mem_map_of_mem h)),
    mem_dedup.mpr (mem_map_of_mem (mem_filter.mpr ⟨h,by simp⟩))⟩

lemma tuple_defined {g : Grant} {ps : List PermissionDef} (h : permission g ∈ ps)
    (hg : g.2.1 ≠ "" ∧ ':' ∉ g.2.1.toList) : Defined (ensureModel ps)
      ("role:" ++ g.1 ++ "#member","can_" ++ g.2.2,g.2.1 ++ ":" ++ g.2.2) := by
  have hm : g.2 ∈ resourceActions ps := mem_flatMap.mpr ⟨_,h,by simp [permission, hg.1]⟩
  obtain ⟨as,hr,ha⟩ := mem_resources hm
  refine ⟨_,.tail _ (.tail _ (mem_map_of_mem hr)),
    (congrArg Prod.fst (cut_append hg.2 _)).symm,_,mem_map_of_mem ha,?_⟩
  have hu : hasPrefix ("role:" ++ g.1 ++ "#member") "role:" := by
    rw [String.append_assoc]
    exact hasPrefix_append
  have he : hasSuffix ("role:" ++ g.1 ++ "#member") "#member" := (hasSuffix_iff _).mpr ⟨_,rfl⟩
  simp [allows, hu, he]

lemma permission_injective : Injective permission := by
  rintro ⟨role, resource, action⟩ g' h
  simpa [permission, Prod.ext_iff, eq_comm] using h

lemma types_eq (ps : List PermissionDef) : (ensureModel ps).map TypeDefinition.type =
    "user"::"role"::((resourceActions ps).map Prod.fst).dedup := by
  simp [ensureModel, ensureDefaultModel, resources, comp_def]

lemma types_nodup_iff {ps : List PermissionDef} :
    ((ensureModel ps).map TypeDefinition.type).Nodup ↔
      ∀ r ∈ resourceActions ps, r.1 ∉ ["user","role"] := by
  rw [types_eq, nodup_cons, nodup_cons, and_iff_left (nodup_dedup _)]
  grind [mem_dedup]

/-- Every grant is returned once, the types are distinct and every tuple is defined. -/
structure Consistent (cfg : Config) : Prop where
  complete : ∀ g, permission g ∈ collectPermissions cfg ↔ g ∈ grants cfg
  once : (collectPermissions cfg).Nodup
  types : ((ensureModel (collectPermissions cfg)).map TypeDefinition.type).Nodup
  tuples : ∀ t ∈ seedPermissions (collectPermissions cfg),
    Defined (ensureModel (collectPermissions cfg)) t

/-- The seed is consistent exactly if no two grants have the same joined names
and no resource is called user or role. -/
theorem seed_consistent_iff (cfg : Config) : Consistent cfg ↔
    (∀ g ∈ grants cfg, ∀ g' ∈ grants cfg, key g = key g' → g = g') ∧
      ∀ g ∈ grants cfg, g.2.1 ∉ ["user","role"] := by
  obtain ⟨hn, hm, hk⟩ := collected (grants cfg)
  have hp : ∀ g, permission g ∈ collectPermissions cfg ↔ g ∈ (grants cfg).foldl add [] :=
    fun g => mem_map_of_injective permission_injective
  have hr : ∀ r, r ∈ resourceActions (collectPermissions cfg) ↔
      ∃ g ∈ (grants cfg).foldl add [], g.2 = r := by
    intro r
    simp only [resourceActions, collectPermissions, mem_flatMap, mem_map]
    constructor
    · rintro ⟨_, ⟨g, hg, rfl⟩, hr⟩
      exact ⟨g, hg, by grind [permission]⟩
    · rintro ⟨g, hg, rfl⟩
      exact ⟨_, ⟨g, hg, rfl⟩, by simp [permission, (mem_grants (hm g hg)).1]⟩
  constructor
  · rintro ⟨hc, -, ht, -⟩
    simp only [hp] at hc
    refine ⟨fun g hg g' hg' he => ?_, fun g hg => ?_⟩
    · exact inj_on_of_nodup_map hn ((hc g).mpr hg) ((hc g').mpr hg') he
    · exact types_nodup_iff.mp ht _ ((hr _).mpr ⟨g, (hc g).mpr hg, rfl⟩)
  · rintro ⟨hi, hre⟩
    refine ⟨fun g => (hp g).trans ⟨hm g, fun hg => ?_⟩, hn.of_map.map permission_injective,
      types_nodup_iff.mpr fun r h => ?_, fun t ht => ?_⟩
    · obtain ⟨g', hg', he⟩ := mem_map.mp (hk g hg)
      exact hi g' (hm g' hg') g hg he ▸ hg'
    · obtain ⟨g, hg, rfl⟩ := (hr r).mp h
      exact hre g (hm g hg)
    · obtain ⟨p, hp, ht⟩ := mem_flatMap.mp ht
      obtain ⟨g, hg, rfl⟩ := mem_map.mp hp
      obtain rfl := mem_singleton.mp ht
      exact tuple_defined hp (mem_grants (hm g hg))

/-- A bar in a name hides a grant, and a resource can be called user. -/
theorem grant_lost :
    collectPermissions { rolePermissions := [("a|b",["c:d"]),("a",["b|c:d"])] } =
      [permission ("a|b","c","d")] ∧
    (ensureModel (collectPermissions { rolePermissions := [("a",["user:read"])] })).map
      TypeDefinition.type = ["user","role","user"] := by
  decide

end SdkApi.SeededModel
