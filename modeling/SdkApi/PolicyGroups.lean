import SdkApi.EntryOptions
import SdkApi.ResponseHeaders

/-!
# Policy groups and their requests

An entry can name a CORS group and a group of security headers. At startup each
group is given one path text, the path of the first middleware item or entry
that names it, and at run time it applies to the paths that start with that
text. Middleware items and the CORS groups of earlier entries are mounted at
their paths besides.
-/

namespace SdkApi.PolicyGroups
open GoStrings PathPatterns RouterStack EntryOptions ResponseHeaders List
open CrudRoutes (bind_ok)

structure RouteMW where
  path : String
  apply : List String

structure Entry extends toDef : EntryDef where
  csp : String := ""

structure CSPGroup where
  name : String
  csp : Option CSPConfig

section

def groupNames (what : String) : ℕ → List String → List String → Except String (List String)
  | _, [], seen => .ok seen
  | i, name::names, seen =>
    if name = "" then .error (what ++ "_groups[" ++ toString i ++ "]: name is required")
    else if name ∈ seen then
      .error (what ++ "_groups[" ++ toString i ++ "]: duplicate name \"" ++ name ++ "\"")
    else groupNames what (i+1) names (name::seen)

def groupRefs (what : String) (ref : Entry → String) (seen : List String) :
    ℕ → List Entry → Except String Unit
  | _, [] => .ok ()
  | i, e::entries =>
    if ref e ≠ "" ∧ ref e ∉ seen then
      .error ("entry[" ++ toString i ++ "] (" ++ e.path ++ "): " ++ what ++ " \"" ++ ref e ++
        "\" not found in " ++ what ++ "_groups")
    else groupRefs what ref seen (i+1) entries

def validateGroups (what : String) (ref : Entry → String) (names : List String)
    (entries : List Entry) : Except String Unit := do
  let seen ← groupNames what 0 names []
  groupRefs what ref seen 0 entries

def validateConfigCORSGroups (names : List String) (entries : List Entry) : Except String Unit :=
  validateGroups "cors" (·.cors) names entries

def validateConfigCSPGroups (names : List String) (entries : List Entry) : Except String Unit :=
  validateGroups "csp" (·.csp) names entries

variable {what : String} {ref : Entry → String} {entries : List Entry}

lemma groupNames_ok {names seen out : List String} {i : ℕ}
    (h : groupNames what i names seen = .ok out) :
    (∀ name ∈ names, name ≠ "") ∧ ∀ name ∈ out, name ∈ names ∨ name ∈ seen := by
  induction names generalizing i seen with
  | nil =>
    cases h
    exact ⟨nofun,fun name hn => .inr hn⟩
  | cons first names ih =>
    rw [groupNames] at h
    split_ifs at h with he hu
    obtain ⟨hne,ho⟩ := ih h
    refine ⟨forall_mem_cons.mpr ⟨he,hne⟩,fun name hn => ?_⟩
    rcases ho name hn with hm | hm
    · exact .inl (.tail _ hm)
    · rcases mem_cons.mp hm with rfl | hse
      · exact .inl (.head _)
      · exact .inr hse

lemma groupRefs_ok {seen : List String} {i : ℕ} (h : groupRefs what ref seen i entries = .ok ()) :
    ∀ e ∈ entries, ref e ≠ "" → ref e ∈ seen := by
  induction entries generalizing i with
  | nil => exact fun e he => absurd he not_mem_nil
  | cons e entries ih =>
    rw [groupRefs] at h
    split_ifs at h with hb
    refine forall_mem_cons.mpr ⟨fun hn => ?_,ih h⟩
    by_contra hno
    exact hb ⟨hn,hno⟩

lemma validateGroups_ok {names : List String} (h : validateGroups what ref names entries = .ok ()) :
    (∀ name ∈ names, name ≠ "") ∧ ∀ e ∈ entries, ref e ≠ "" → ref e ∈ names := by
  obtain ⟨seen,hn,hre⟩ := bind_ok h
  obtain ⟨hne,hse⟩ := groupNames_ok hn
  refine ⟨hne,fun e he hrf => ?_⟩
  simpa using hse _ (groupRefs_ok hre e he hrf)

end

/-- `corsFuncs` are the names with a function of the service. -/
structure Config where
  svc : Service
  middleware : List RouteMW := []
  cors : Option (List String) := none
  corsFuncs : List String := []
  securityHeaders : Option SecurityHeadersConfig := none
  cspGroups : List CSPGroup := []
  entries : List Entry
  corsAccepted : validateConfigCORSGroups svc.corsGroups entries = .ok ()
  cspAccepted : validateConfigCSPGroups (cspGroups.map CSPGroup.name) entries = .ok ()

inductive Policy where
  | global
  | group (name : String)
  deriving DecidableEq

section

variable (cfg : Config)

def withPrefix (e : Entry) : String :=
  if cfg.svc.pre ≠ "" && !hasPrefix e.path cfg.svc.pre then cfg.svc.pre ++ e.path else e.path

def groupPathPrefix (mark : String) (ref : Entry → String) (name : String) : String :=
  match cfg.middleware.find? (fun mw => mark ++ name ∈ mw.apply) with
  | some mw => mw.path
  | none =>
    ((cfg.entries.find? fun e => ref e = name && e.path ≠ "").map (withPrefix cfg)).getD ""

def corsGroupPathPrefix (name : String) : String := groupPathPrefix cfg "cors:" (·.cors) name

def cspGroupPathPrefix (name : String) : String := groupPathPrefix cfg "csp:" (·.csp) name

def corsSet : Bool := cfg.cors.isSome || cfg.svc.corsGroups ≠ [] || cfg.corsFuncs ≠ []

def globalCORS : Bool := cfg.cors.any (· ≠ []) || "" ∈ cfg.corsFuncs

variable (r : Request)

def owns (pathPrefix : String) : Bool :=
  pathPrefix ≠ "" && hasPrefix (String.ofList r.path) pathPrefix

def corsOwns (name : String) : Bool := owns r (corsGroupPathPrefix cfg name)

def cspOwns (name : String) : Bool := owns r (cspGroupPathPrefix cfg name)

def corsPathSkipped : Bool := cfg.svc.corsGroups.any fun name => name ≠ "" && corsOwns cfg r name

def registerCORSGroups : List Policy :=
  (cfg.svc.corsGroups.filter fun name => name ≠ "" && corsOwns cfg r name).map .group

def globalPolicy : List Policy :=
  if globalCORS cfg && !corsPathSkipped cfg r then [.global] else []

def applyMiddlewareByType (name : String) : List Policy :=
  if name = "cors" then if corsSet cfg then [.global] else []
  else
    match cutPrefix name "cors:" with
    | (groupName,true) =>
      if corsSet cfg && groupName ∈ cfg.svc.corsGroups then [.group groupName] else []
    | _ => []

def setupPerRouteMiddlewares : List Policy :=
  cfg.middleware.flatMap fun rc =>
    if matchMount rc.path.toList r.path then rc.apply.flatMap (applyMiddlewareByType cfg) else []

def entryCORS (ran : List (ℕ × Opt)) : List Policy :=
  ran.filterMap fun i =>
    if i.2 = .cors then cfg.entries[i.1]?.map fun e => .group e.cors else none

def corsApplied (ran : List (ℕ × Opt)) : List Policy :=
  globalPolicy cfg r++registerCORSGroups cfg r++setupPerRouteMiddlewares cfg r++entryCORS cfg ran

def groupHeaders (base : SecurityHeadersConfig) (g : CSPGroup) :
    Option (Policy × SecurityHeadersConfig) :=
  if cspOwns cfg r g.name then g.csp.map fun csp => (.group g.name,withCSP base csp) else none

def applySecurityHeaders : List (Policy × SecurityHeadersConfig) :=
  match cfg.securityHeaders with
  | none => []
  | some base =>
    (if cfg.cspGroups.any fun g => cspOwns cfg r g.name then [] else [(.global,base)])++
      cfg.cspGroups.filterMap (groupHeaders cfg r base)

def sentHeaders (h : Headers) : Headers :=
  (applySecurityHeaders cfg r).foldl (fun h m => ResponseHeaders.securityHeaders m.2 h) h

def headersInForce : Option (Policy × SecurityHeadersConfig) :=
  (applySecurityHeaders cfg r).getLast?

end

section

variable {cfg : Config} {r : Request} {base : SecurityHeadersConfig}

lemma fold_groups (base : SecurityHeadersConfig) {ms : List (Policy × SecurityHeadersConfig)}
    (hm : ∀ m ∈ ms, ∃ csp, m.2 = withCSP base csp) (csp : CSPConfig) (h : Headers) :
    ResponseHeaders.securityHeaders (withCSP base csp)
        (ms.foldl (fun h m => ResponseHeaders.securityHeaders m.2 h) h) =
      ResponseHeaders.securityHeaders (withCSP base csp) h := by
  induction ms generalizing h with
  | nil => rfl
  | cons m ms ih =>
    rw [forall_mem_cons] at hm
    obtain ⟨c,hc⟩ := hm.1
    rw [foldl_cons, ih hm.2, hc, securityHeaders_last]

lemma groupHeaders_csp {g : CSPGroup}
    {m : Policy × SecurityHeadersConfig} (h : groupHeaders cfg r base g = some m) :
    cspOwns cfg r g.name ∧ g.csp.isSome ∧ m.1 = .group g.name ∧ ∃ csp, m.2 = withCSP base csp := by
  unfold groupHeaders at h
  split_ifs at h with ho
  obtain ⟨csp,hcs,rfl⟩ := Option.map_eq_some_iff.mp h
  exact ⟨ho,by simp [hcs],rfl,csp,rfl⟩

lemma filterMap_groupHeaders_nil (h : cfg.cspGroups.any (fun g => cspOwns cfg r g.name) = false) :
    cfg.cspGroups.filterMap (groupHeaders cfg r base) = [] := by
  rw [filterMap_eq_nil_iff]
  intro g hg
  have hno := any_eq_false.mp h g hg
  rw [groupHeaders, if_neg hno]

/-- Where several groups apply, the last one decides every header. -/
theorem sentHeaders_eq (cfg : Config) (r : Request) (h : Headers) :
    sentHeaders cfg r h =
      (headersInForce cfg r).elim h fun m => ResponseHeaders.securityHeaders m.2 h := by
  unfold sentHeaders headersInForce applySecurityHeaders
  cases cfg.securityHeaders with
  | none => rfl
  | some base =>
    cases ha : cfg.cspGroups.any fun g => cspOwns cfg r g.name with
    | false => simp [filterMap_groupHeaders_nil ha]
    | true =>
      simp only [if_true, nil_append]
      have ho : ∀ m ∈ cfg.cspGroups.filterMap (groupHeaders cfg r base),
          ∃ csp, m.2 = withCSP base csp := by
        intro m hm
        obtain ⟨g,-,hg⟩ := mem_filterMap.mp hm
        exact (groupHeaders_csp hg).2.2.2
      rcases eq_nil_or_concat (cfg.cspGroups.filterMap (groupHeaders cfg r base)) with
        hn | ⟨front,last,hl⟩
      · rw [hn]
        rfl
      · rw [concat_eq_append] at hl
        rw [hl] at ho ⊢
        obtain ⟨csp,hcs⟩ := ho last (by simp)
        rw [foldl_append, getLast?_concat, Option.elim_some, foldl_cons,
          foldl_nil, hcs]
        exact fold_groups base (fun m hm => ho m (mem_append_left _ hm)) csp h

end

section

variable (cfg : Config) (r : Request) (k : ℕ) (e : Entry)

/-- The group that the entry names, or else the global one. -/
def wanted (ref : String) (globalOn : Bool) : Option Policy :=
  if ref ≠ "" then some (.group ref) else if globalOn then some .global else none

/-- The policies that the request meets are those of its entry. -/
structure Assigned (ran : List (ℕ × Opt)) : Prop where
  cors : ∀ p, p ∈ corsApplied cfg r ran ↔ wanted e.cors (globalCORS cfg) = some p
  csp : (headersInForce cfg r).map Prod.fst = wanted e.csp cfg.securityHeaders.isSome

def PlainMounted : Prop :=
  ∃ rc ∈ cfg.middleware, matchMount rc.path.toList r.path ∧ "cors" ∈ rc.apply

def CorsMounted (name : String) : Prop :=
  (∃ rc ∈ cfg.middleware, matchMount rc.path.toList r.path ∧ "cors:" ++ name ∈ rc.apply) ∨
    ∃ j a, j < k ∧ cfg.entries[j]? = some a ∧ a.cors = name ∧
      matchMount (cfg.svc.pre ++ a.path).toList r.path

/-- No other CORS group meets the request, and the own one does. -/
structure CorsKept : Prop where
  own : e.cors ≠ "" → corsOwns cfg r e.cors ∨
    globalCORS cfg = false ∧ CorsMounted cfg r k e.cors
  apart : ∀ name ∈ cfg.svc.corsGroups, name ≠ e.cors →
    corsOwns cfg r name = false ∧ ¬CorsMounted cfg r k name
  plain : corsSet cfg → PlainMounted cfg r → e.cors = "" ∧ globalCORS cfg

/-- The own headers group reaches the path and no later one does. -/
structure CspKept : Prop where
  own : e.csp ≠ "" → cfg.securityHeaders.isSome ∧ ∃ before g after,
    cfg.cspGroups = before++g::after ∧ g.name = e.csp ∧ g.csp.isSome ∧
    cspOwns cfg r g.name ∧ ∀ g' ∈ after, g'.csp.isSome → cspOwns cfg r g'.name = false
  plain : e.csp = "" → cfg.securityHeaders.isSome → ∀ g ∈ cfg.cspGroups,
    cspOwns cfg r g.name = false

variable {cfg r k e} {globalOn : Bool}

lemma wanted_group {ref name : String} :
    wanted ref globalOn = some (.group name) ↔ ref ≠ "" ∧ ref = name := by
  unfold wanted
  split_ifs with he hg
  · simp [he]
  · simp [he]
  · simp [he]

lemma wanted_global {ref : String} : wanted ref globalOn = some .global ↔ ref = "" ∧ globalOn := by
  unfold wanted
  split_ifs with he hg
  · simp [he]
  · simp [hg, not_not.mp he]
  · simp [hg]

lemma cors_ne (g : String) : "cors:" ++ g ≠ "cors" := by
  intro h
  have := congrArg (fun s => s.toList.length) h
  simp [String.toList_append] at this

variable {name : String} {p : Policy} {ran : List (ℕ × Opt)} {base : SecurityHeadersConfig}

lemma mem_applyMiddlewareByType :
    p ∈ applyMiddlewareByType cfg name ↔ corsSet cfg ∧ (name = "cors" ∧ p = .global ∨
      ∃ g ∈ cfg.svc.corsGroups, name = "cors:" ++ g ∧ p = .group g) := by
  unfold applyMiddlewareByType
  by_cases hname : name = "cors"
  · subst hname
    by_cases he : corsSet cfg
    · simp [he, (cors_ne _).symm]
    · simp [he]
  · by_cases hpr : hasPrefix name "cors:"
    · obtain ⟨g,rfl⟩ := (hasPrefix_iff _ _).mp hpr
      rw [if_neg hname, cutPrefix_append]
      by_cases he : corsSet cfg
      · by_cases hg : g ∈ cfg.svc.corsGroups
        · simp [he, hg, hname]
        · simp [he, hg, hname]
      · simp [he]
    · have hno : ∀ g, name ≠ "cors:" ++ g := fun g hg => hpr ((hasPrefix_iff _ _).mpr ⟨g,hg⟩)
      simp [hname, cutPrefix, hpr, hno]

lemma mem_perRoute :
    p ∈ setupPerRouteMiddlewares cfg r ↔ ∃ rc ∈ cfg.middleware, matchMount rc.path.toList r.path ∧
      ∃ name ∈ rc.apply, p ∈ applyMiddlewareByType cfg name := by
  simp only [setupPerRouteMiddlewares, mem_flatMap]
  refine exists_congr fun rc => and_congr_right fun _ => ?_
  by_cases hm : matchMount rc.path.toList r.path
  · simp [hm]
  · simp [hm]

lemma group_mem_perRoute (hn : name ∈ cfg.svc.corsGroups) :
    .group name ∈ setupPerRouteMiddlewares cfg r ↔
      ∃ rc ∈ cfg.middleware, matchMount rc.path.toList r.path ∧ "cors:" ++ name ∈ rc.apply := by
  have ht : corsSet cfg := by simp [corsSet, ne_nil_of_mem hn]
  simp only [mem_perRoute, mem_applyMiddlewareByType, ht, true_and, reduceCtorEq, and_false,
    false_or, Policy.group.injEq]
  constructor
  · rintro ⟨rc,hrc,hm,_,he,g,-,rfl,rfl⟩
    exact ⟨rc,hrc,hm,he⟩
  · rintro ⟨rc,hrc,hm,he⟩
    exact ⟨rc,hrc,hm,_,he,name,hn,rfl,rfl⟩

lemma global_mem_perRoute :
    .global ∈ setupPerRouteMiddlewares cfg r ↔ corsSet cfg ∧ PlainMounted cfg r := by
  simp only [mem_perRoute, mem_applyMiddlewareByType, and_true, reduceCtorEq, and_false,
    exists_false, or_false]
  constructor
  · rintro ⟨rc,hrc,hm,_,he,ht,rfl⟩
    exact ⟨ht,rc,hrc,hm,he⟩
  · rintro ⟨ht,rc,hrc,hm,he⟩
    exact ⟨rc,hrc,hm,_,he,ht,rfl⟩

def RanCors (cfg : Config) (r : Request) (k : ℕ) (ran : List (ℕ × Opt)) : Prop :=
  ∀ j, (j,Opt.cors) ∈ ran ↔ ∃ a, cfg.entries[j]? = some a ∧ a.cors ≠ "" ∧
    a.cors ∈ cfg.svc.corsGroups ∧ j < k ∧ matchMount (cfg.svc.pre ++ a.path).toList r.path

lemma ranCors_of_served {stack : Stack}
    (hok : registerEntries cfg.svc 0 (cfg.entries.map Entry.toDef) = .ok stack)
    (hs : serve r (stack.map Item.added) = some (ran,k)) : RanCors cfg r k ran := by
  intro j
  have hn := ((blocks_of_registered hok).added.mem_ran hs).2 j .cors
  simp only [mk_mem_zipIdx_iff_getElem?, getElem?_map, Option.map_eq_some_iff] at hn
  rw [hn]
  constructor
  · rintro ⟨_,⟨a,ha,rfl⟩,hm,⟨hl,hc⟩ | ⟨-,hno⟩⟩
    · simp only [mounted, Bool.and_eq_true, decide_eq_true_eq] at hm
      exact ⟨a,ha,hm.1,hm.2,hl,hc⟩
    · exact absurd rfl hno
  · rintro ⟨a,ha,hne,he,hl,hc⟩
    exact ⟨_,⟨a,ha,rfl⟩,by simp [mounted, hne, he],.inl ⟨hl,hc⟩⟩

lemma mem_entryCORS :
    p ∈ entryCORS cfg ran ↔
      ∃ j a, (j,Opt.cors) ∈ ran ∧ cfg.entries[j]? = some a ∧ p = .group a.cors := by
  simp only [entryCORS, mem_filterMap]
  constructor
  · rintro ⟨⟨j,o⟩,he,hm⟩
    simp only at hm
    split_ifs at hm with ho
    subst ho
    obtain ⟨a,ha,hp⟩ := Option.map_eq_some_iff.mp hm
    exact ⟨j,a,he,ha,hp.symm⟩
  · rintro ⟨j,a,he,ha,rfl⟩
    exact ⟨(j,.cors),he,by simp [ha]⟩

lemma group_mem_entryCORS (hra : RanCors cfg r k ran)
    (hn : name ∈ cfg.svc.corsGroups) (he : name ≠ "") :
    .group name ∈ entryCORS cfg ran ↔ ∃ j a, j < k ∧ cfg.entries[j]? = some a ∧ a.cors = name ∧
      matchMount (cfg.svc.pre ++ a.path).toList r.path := by
  rw [mem_entryCORS]
  constructor
  · rintro ⟨j,a,hm,ha,hname⟩
    obtain ⟨a',ha',-,-,hl,hc⟩ := (hra j).mp hm
    obtain rfl : a = a' := Option.some.inj (ha.symm.trans ha')
    exact ⟨j,a,hl,ha,(Policy.group.inj hname).symm,hc⟩
  · rintro ⟨j,a,hl,ha,rfl,hc⟩
    exact ⟨j,a,(hra j).mpr ⟨a,ha,he,hn,hl,hc⟩,ha,rfl⟩

lemma names_ne (hn : name ∈ cfg.svc.corsGroups) : name ≠ "" :=
  (validateGroups_ok cfg.corsAccepted).1 name hn

lemma group_mem_corsApplied (ha : RanCors cfg r k ran) (hn : name ∈ cfg.svc.corsGroups) :
    .group name ∈ corsApplied cfg r ran ↔ corsOwns cfg r name ∨ CorsMounted cfg r k name := by
  have hne := names_ne hn
  have hg : .group name ∉ globalPolicy cfg r := by
    unfold globalPolicy
    split_ifs <;> simp
  have he : .group name ∈ registerCORSGroups cfg r ↔ corsOwns cfg r name := by
    simp [registerCORSGroups, hn, hne]
  simp only [corsApplied, mem_append, hg, false_or, he, group_mem_perRoute hn,
    group_mem_entryCORS ha hn hne, CorsMounted, or_assoc]

lemma known_of_mem_corsApplied (hn : RanCors cfg r k ran)
    (h : .group name ∈ corsApplied cfg r ran) : name ∈ cfg.svc.corsGroups := by
  simp only [corsApplied, mem_append] at h
  rcases h with ((h | h) | h) | h
  · unfold globalPolicy at h
    split_ifs at h <;> simp at h
  · obtain ⟨_,hm,he⟩ := mem_map.mp h
    cases he
    exact (mem_filter.mp hm).1
  · obtain ⟨rc,-,-,_,-,hp⟩ := mem_perRoute.mp h
    obtain ⟨-,⟨-,hp⟩ | ⟨g,hg,-,hp⟩⟩ := mem_applyMiddlewareByType.mp hp
    · cases hp
    · cases hp
      exact hg
  · obtain ⟨j,a,hm,ha,hname⟩ := mem_entryCORS.mp h
    obtain ⟨a',ha',-,hk,-⟩ := (hn j).mp hm
    obtain rfl : a = a' := Option.some.inj (ha.symm.trans ha')
    cases hname
    exact hk

lemma global_mem_corsApplied :
    .global ∈ corsApplied cfg r ran ↔ globalCORS cfg ∧ corsPathSkipped cfg r = false ∨
      corsSet cfg ∧ PlainMounted cfg r := by
  have he : Policy.global ∉ entryCORS cfg ran := by
    rw [mem_entryCORS]
    rintro ⟨j,a,-,-,hp⟩
    cases hp
  simp [corsApplied, globalPolicy, registerCORSGroups, global_mem_perRoute, he]

lemma skipped_iff : corsPathSkipped cfg r ↔
    ∃ name ∈ cfg.svc.corsGroups, corsOwns cfg r name := by
  simp only [corsPathSkipped, any_eq_true, Bool.and_eq_true, decide_eq_true_eq]
  constructor
  · rintro ⟨name,hn,-,ho⟩
    exact ⟨name,hn,ho⟩
  · rintro ⟨name,hn,ho⟩
    exact ⟨name,hn,names_ne hn,ho⟩

section

variable {ran : List (ℕ × Opt)}

lemma corsKept_of_assigned (ha : RanCors cfg r k ran)
    (h : ∀ p, p ∈ corsApplied cfg r ran ↔ wanted e.cors (globalCORS cfg) = some p)
    (he : e ∈ cfg.entries) : CorsKept cfg r k e := by
  have ho : ∀ name ∈ cfg.svc.corsGroups, name ≠ e.cors →
      corsOwns cfg r name = false ∧ ¬CorsMounted cfg r k name := by
    intro name hn hne
    have hno : .group name ∉ corsApplied cfg r ran := by
      rw [h, wanted_group]
      exact fun hw => hne hw.2.symm
    rw [group_mem_corsApplied ha hn, not_or] at hno
    exact ⟨by simpa using hno.1,hno.2⟩
  constructor
  · intro hne
    have hn := (validateGroups_ok cfg.corsAccepted).2 e he hne
    have hme := (h (.group e.cors)).mpr (wanted_group.mpr ⟨hne,rfl⟩)
    rcases (group_mem_corsApplied ha hn).mp hme with how | hm
    · exact .inl how
    · by_cases hg : globalCORS cfg
      · -- The global policy is kept off by a group whose text starts the path.
        have hno : .global ∉ corsApplied cfg r ran := by
          rw [h, wanted_global]
          exact fun hw => hne hw.1
        rw [global_mem_corsApplied, not_or] at hno
        have hk : corsPathSkipped cfg r := by simpa [hg] using hno.1
        obtain ⟨name,hn',how⟩ := skipped_iff.mp hk
        by_cases hq : name = e.cors
        · exact .inl (hq ▸ how)
        · exact absurd how (by simp [(ho name hn' hq).1])
      · exact .inr ⟨by simpa using hg,hm⟩
  · exact ho
  · intro ht hu
    exact wanted_global.mp ((h .global).mp (global_mem_corsApplied.mpr (.inr ⟨ht,hu⟩)))

lemma group_of_corsKept (hra : RanCors cfg r k ran) (h : CorsKept cfg r k e) (he : e ∈ cfg.entries)
    {name : String} : .group name ∈ corsApplied cfg r ran ↔ e.cors ≠ "" ∧ e.cors = name := by
  constructor
  · intro hme
    have hn := known_of_mem_corsApplied hra hme
    have ha : e.cors = name := by
      by_contra hne
      obtain ⟨how,hu⟩ := h.apart name hn (Ne.symm hne)
      rcases (group_mem_corsApplied hra hn).mp hme with ho | hm
      · simp [how] at ho
      · exact hu hm
    exact ⟨ha ▸ names_ne hn,ha⟩
  · rintro ⟨hne,rfl⟩
    rw [group_mem_corsApplied hra ((validateGroups_ok cfg.corsAccepted).2 e he hne)]
    exact (h.own hne).imp_right And.right

lemma global_of_corsKept (h : CorsKept cfg r k e) (he : e ∈ cfg.entries) :
    .global ∈ corsApplied cfg r ran ↔ e.cors = "" ∧ globalCORS cfg := by
  rw [global_mem_corsApplied]
  constructor
  · rintro (⟨hg,hk⟩ | ⟨ht,ho⟩)
    · refine ⟨?_,hg⟩
      by_contra hne
      have hn := (validateGroups_ok cfg.corsAccepted).2 e he hne
      rcases h.own hne with how | ⟨hof,-⟩
      · simp [skipped_iff.mpr ⟨_,hn,how⟩] at hk
      · simp [hof] at hg
    · exact h.plain ht ho
  · rintro ⟨hm,hg⟩
    refine .inl ⟨hg,?_⟩
    rw [Bool.eq_false_iff, Ne, skipped_iff]
    rintro ⟨name,hn,how⟩
    have hne : name ≠ e.cors := hm ▸ names_ne hn
    simp [(h.apart name hn hne).1] at how

lemma assigned_of_corsKept (ha : RanCors cfg r k ran)
    (h : CorsKept cfg r k e) (he : e ∈ cfg.entries) (p : Policy) :
    p ∈ corsApplied cfg r ran ↔ wanted e.cors (globalCORS cfg) = some p := by
  cases p with
  | group name => rw [wanted_group, group_of_corsKept ha h he]
  | global => rw [wanted_global, global_of_corsKept h he]

end

lemma groupHeaders_none {g : CSPGroup} :
    groupHeaders cfg r base g = none ↔ (g.csp.isSome → cspOwns cfg r g.name = false) := by
  unfold groupHeaders
  by_cases ho : cspOwns cfg r g.name
  · simp [ho]
  · simp [ho]

lemma lastGroup_iff {m : Policy × SecurityHeadersConfig} :
    (cfg.cspGroups.filterMap (groupHeaders cfg r base)).getLast? = some m ↔
      ∃ before g after, cfg.cspGroups = before++g::after ∧ groupHeaders cfg r base g = some m ∧
        ∀ g' ∈ after, g'.csp.isSome → cspOwns cfg r g'.name = false := by
  rw [getLast?_filterMap, findSome?_eq_some_iff]
  constructor
  · rintro ⟨ys,g,zs,hl,hg,hy⟩
    refine ⟨zs.reverse,g,ys.reverse,?_,hg,fun g' hg' => ?_⟩
    · have := congrArg reverse hl
      simpa using this
    · exact groupHeaders_none.mp (hy g' (mem_reverse.mp hg'))
  · rintro ⟨before,g,after,hl,hg,ha⟩
    refine ⟨after.reverse,g,before.reverse,by simp [hl],hg,fun g' hg' => ?_⟩
    exact groupHeaders_none.mpr (ha g' (mem_reverse.mp hg'))

lemma headersInForce_none (hbase : cfg.securityHeaders = none) : headersInForce cfg r = none := by
  simp [headersInForce, applySecurityHeaders, hbase]

section

variable {base : SecurityHeadersConfig} (hbase : cfg.securityHeaders = some base)
include hbase

lemma headersInForce_eq :
    headersInForce cfg r = (cfg.cspGroups.filterMap (groupHeaders cfg r base)).getLast?.or
      (if cfg.cspGroups.any fun g => cspOwns cfg r g.name then none else some (.global,base)) := by
  rw [headersInForce, applySecurityHeaders, hbase, getLast?_append]
  split_ifs <;> rfl

lemma headersInForce_group {name : String} :
    (headersInForce cfg r).map Prod.fst = some (.group name) ↔ ∃ before g after,
      cfg.cspGroups = before++g::after ∧ g.name = name ∧ g.csp.isSome ∧ cspOwns cfg r g.name ∧
        ∀ g' ∈ after, g'.csp.isSome → cspOwns cfg r g'.name = false := by
  rw [headersInForce_eq hbase]
  constructor
  · intro h
    cases ht : (cfg.cspGroups.filterMap (groupHeaders cfg r base)).getLast? with
    | none =>
      rw [ht, Option.none_or] at h
      split_ifs at h <;> simp at h
    | some m =>
      rw [ht, Option.some_or, Option.map_some] at h
      obtain ⟨before,g,after,hl,hg,ha⟩ := lastGroup_iff.mp ht
      obtain ⟨ho,hcs,hm,-⟩ := groupHeaders_csp hg
      rw [hm] at h
      cases h
      exact ⟨before,g,after,hl,rfl,hcs,ho,ha⟩
  · rintro ⟨before,g,after,hl,rfl,hcs,ho,ha⟩
    obtain ⟨csp,hcs⟩ := Option.isSome_iff_exists.mp hcs
    have hg : groupHeaders cfg r base g = some (.group g.name,withCSP base csp) := by
      rw [groupHeaders, if_pos ho, hcs, Option.map_some]
    rw [lastGroup_iff.mpr ⟨before,g,after,hl,hg,ha⟩, Option.some_or, Option.map_some]

lemma headersInForce_global :
    (headersInForce cfg r).map Prod.fst = some .global ↔
      ∀ g ∈ cfg.cspGroups, cspOwns cfg r g.name = false := by
  have ha : (∀ g ∈ cfg.cspGroups, cspOwns cfg r g.name = false) ↔
      cfg.cspGroups.any (fun g => cspOwns cfg r g.name) = false := by simp [any_eq_false]
  rw [headersInForce_eq hbase, ha]
  constructor
  · intro h
    cases hl : (cfg.cspGroups.filterMap (groupHeaders cfg r base)).getLast? with
    | none =>
      rw [hl, Option.none_or] at h
      split_ifs at h with ho
      · simp at h
      · simpa using ho
    | some m =>
      rw [hl, Option.some_or, Option.map_some] at h
      obtain ⟨_,g,_,-,hg,-⟩ := lastGroup_iff.mp hl
      rw [(groupHeaders_csp hg).2.2.1] at h
      cases h
  · intro h
    rw [filterMap_groupHeaders_nil h, h]
    rfl

end

lemma csp_iff :
    (headersInForce cfg r).map Prod.fst = wanted e.csp cfg.securityHeaders.isSome ↔
      CspKept cfg r e := by
  by_cases hn : e.csp = ""
  · cases hbase : cfg.securityHeaders with
    | none =>
      have hk : CspKept cfg r e := by
        refine ⟨fun hno => absurd hn hno,fun _ ho => ?_⟩
        simp [hbase] at ho
      simp [headersInForce_none hbase, wanted, hn, hk]
    | some base =>
      have hw : wanted e.csp (some base).isSome = some .global := wanted_global.mpr ⟨hn,rfl⟩
      rw [hw, headersInForce_global hbase]
      constructor
      · exact fun h => ⟨fun hno => absurd hn hno,fun _ _ => h⟩
      · exact fun h => h.plain hn (by simp [hbase])
  · have hw : wanted e.csp cfg.securityHeaders.isSome = some (.group e.csp) :=
      wanted_group.mpr ⟨hn,rfl⟩
    rw [hw]
    cases hbase : cfg.securityHeaders with
    | none =>
      rw [headersInForce_none hbase, Option.map_none]
      refine ⟨nofun,fun h => ?_⟩
      simpa [hbase] using (h.own hn).1
    | some base =>
      rw [headersInForce_group hbase]
      constructor
      · exact fun h => ⟨fun _ => ⟨by simp [hbase],h⟩,fun hno => absurd hno hn⟩
      · exact fun h => (h.own hn).2

/-- A request has the policies of its entry if and only if the configuration
keeps them apart at its path. -/
theorem assigned_iff_kept (cfg : Config) (stack : Stack)
    (hok : registerEntries cfg.svc 0 (cfg.entries.map Entry.toDef) = .ok stack) (r : Request)
    (ran : List (ℕ × Opt)) (k : ℕ) (hs : serve r (stack.map Item.added) = some (ran,k)) (e : Entry)
    (he : cfg.entries[k]? = some e) :
    Assigned cfg r e ran ↔ CorsKept cfg r k e ∧ CspKept cfg r e := by
  have ha := ranCors_of_served hok hs
  have hm := mem_of_getElem? he
  constructor
  · exact fun h => ⟨corsKept_of_assigned ha h.cors hm,csp_iff.mp h.csp⟩
  · exact fun h => ⟨assigned_of_corsKept ha h.1 hm,csp_iff.mpr h.2⟩

def grouped (path version cors csp : String) : Entry where
  toDef := { restEntry "GET" path with apiVersion := version, cors := cors }
  csp := csp

def webConfig (entries : List Entry)
    (hcors : validateConfigCORSGroups ["web"] entries = .ok ())
    (hcsp : validateConfigCSPGroups ["strict"] entries = .ok ()) : Config where
  svc := { plainService with pre := "/api" }
  cors := some ["*"]
  securityHeaders := some {}
  cspGroups := [⟨"strict",some { level := "strict" }⟩]
  entries := entries
  corsAccepted := hcors
  cspAccepted := hcsp

def oneEntry : Config := webConfig [grouped "/a" "" "web" "strict"] rfl rfl

theorem assigned_iff_kept_one :
    ∃ stack ran, registerEntries oneEntry.svc 0 (oneEntry.entries.map Entry.toDef) = .ok stack ∧
      serve ⟨"GET","/api/a".toList⟩ (stack.map Item.added) = some (ran,0) ∧
      (Assigned oneEntry ⟨"GET","/api/a".toList⟩ (grouped "/a" "" "web" "strict") ran ↔
        CorsKept oneEntry ⟨"GET","/api/a".toList⟩ 0 (grouped "/a" "" "web" "strict") ∧
        CspKept oneEntry ⟨"GET","/api/a".toList⟩ (grouped "/a" "" "web" "strict")) :=
  ⟨_,[],rfl,by decide,assigned_iff_kept oneEntry _ rfl ⟨"GET","/api/a".toList⟩ [] 0 (by decide)
    (grouped "/a" "" "web" "strict") rfl⟩

def Misassigned (cfg : Config) (path : String) (k : ℕ) (cors : List Policy)
    (csp : Option Policy) : Prop :=
  ∃ stack ran e, registerEntries cfg.svc 0 (cfg.entries.map Entry.toDef) = .ok stack ∧
    serve ⟨"GET",path.toList⟩ (stack.map Item.added) = some (ran,k) ∧ cfg.entries[k]? = some e ∧
    corsApplied cfg ⟨"GET",path.toList⟩ ran = cors ∧
    (headersInForce cfg ⟨"GET",path.toList⟩).map Prod.fst = csp ∧
    ¬Assigned cfg ⟨"GET",path.toList⟩ e ran

def sharedGroups : Config :=
  webConfig [grouped "/app" "" "web" "strict",grouped "/b" "" "web" "strict",
    grouped "/apple" "" "" ""] rfl rfl

def versionedGroup : Config := webConfig [grouped "/c" "v2" "web" "strict"] rfl rfl

/-- The second entry of a group and an entry under a version have the global
policies, and a path that starts with the text of another entry has the groups
of that entry. -/
theorem groups_by_text :
    Misassigned sharedGroups "/api/b" 1 [.global] (some .global) ∧
      Misassigned sharedGroups "/api/apple" 2 [.group "web"] (some (.group "strict")) ∧
      Misassigned versionedGroup "/api/v2/c" 0 [.global] (some .global) := by
  refine ⟨⟨_,[],_,rfl,by decide,rfl,by decide,by decide,fun h => ?_⟩,
    ⟨_,[],_,rfl,by decide,rfl,by decide,by decide,fun h => ?_⟩,
    ⟨_,[],_,rfl,by decide,rfl,by decide,by decide,fun h => ?_⟩⟩
  · exact absurd h.csp (by decide)
  · exact absurd h.csp (by decide)
  · exact absurd h.csp (by decide)

end

end SdkApi.PolicyGroups
