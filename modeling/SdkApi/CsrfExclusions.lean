import SdkApi.EntryOptions

/-!
# Requests without a CSRF check

One middleware in front of all routes checks the tokens of state-changing
requests. It is told by a list of path texts which requests to let through:
the configured `exclude_paths` and, appended by `collectCSRFExclusions`, the
configured paths of the entries with `csrf: false`. The router decides by
patterns, prefixes and versions which entry a request belongs to.
-/

namespace SdkApi.CsrfExclusions
open GoStrings RouterStack EntryOptions

/-- `CSRFConf`, and `CSRFConfig` of the middleware, which has the same fields. -/
structure CSRFConfig where
  enabled : Bool
  cookieName : String := ""
  headerName : String := ""
  sameSite : String := ""
  secure : Bool := false
  excludePaths : List String := []
  jsonCheck : Bool := false

structure CookieConf where
  sameSite : String
  secure : Bool

structure Entry extends toDef : EntryDef where
  csrf : Option Bool := none

structure Cookie where
  name : String
  value : String
  secure : Bool
  sameSite : String
  deriving DecidableEq

/-- `locals` are the values set to true. -/
structure Call extends Request where
  get : String → String
  cookies : String → String
  generated : Option String
  locals : List String
  unskipped : "csrf_skip" ∉ locals
  rooted : path.head? = some '/'

def Call.pathText (c : Call) : String := String.ofList c.path

inductive Reply where
  | next (issued : Option Cookie)
  | problem (status : ℕ) (detail : String)
  deriving DecidableEq

section

def parseSameSite (s : String) : String :=
  if toLower s = "strict" then "Strict"
  else if toLower s = "lax" then "Lax"
  else if toLower s = "none" then "None"
  else "Lax"

def excludes (path ep : String) : Bool :=
  ep ≠ "" && if hasSuffix ep "/*" then hasPrefix path (trimSuffix ep "/*") else ep = path

def isExcludedPath (path : String) (excludePaths : List String) : Bool :=
  excludePaths.any (excludes path)

def isJSONContentType (c : Call) : Bool := hasPrefix (c.get "Content-Type") "application/json"

variable (cfg : CSRFConfig) (c : Call)

def cookieNameOf : String := if cfg.cookieName = "" then "csrf_token" else cfg.cookieName

def headerNameOf : String := if cfg.headerName = "" then "X-CSRF-Token" else cfg.headerName

def issueToken : Reply :=
  match c.generated with
  | none => .problem 500 "csrf token generation failed"
  | some token => .next (some ⟨cookieNameOf cfg,token,cfg.secure,parseSameSite cfg.sameSite⟩)

def CSRF : Reply :=
  if isExcludedPath c.pathText cfg.excludePaths then .next none
  else if "csrf_skip" ∈ c.locals then .next none
  else if c.method ∈ ["GET","HEAD","OPTIONS"] then issueToken cfg c
  else if cfg.jsonCheck && isJSONContentType c then .next none
  else
    let headerToken := c.get (headerNameOf cfg)
    let cookieToken := c.cookies (cookieNameOf cfg)
    if headerToken = "" ∨ cookieToken = "" ∨ headerToken ≠ cookieToken then
      .problem 403 "csrf token mismatch"
    else .next none

end

def optedOut (e : Entry) : Bool := e.csrf = some false

/-- Without a pointer in the configuration the loop writes to a copy. -/
def collectCSRFExclusions (entries : List Entry) (conf : Option CSRFConfig) : Option CSRFConfig :=
  conf.map fun c => entries.foldl (fun c e =>
    if optedOut e then { c with excludePaths := c.excludePaths++[e.path] } else c) c

def convertCSRF (cfg : Option CSRFConfig) (cookieCfg : Option CookieConf) : Option CSRFConfig :=
  (cfg.filter CSRFConfig.enabled).map fun c =>
    { c with
      sameSite := if c.sameSite = "" then cookieCfg.elim "" CookieConf.sameSite else c.sameSite
      secure := c.secure || cookieCfg.elim false CookieConf.secure }

def initServer (entries : List Entry) (conf : Option CSRFConfig) (cookieCfg : Option CookieConf) :
    Option CSRFConfig :=
  convertCSRF (collectCSRFExclusions entries conf) cookieCfg

def applyCSRF (cfg : Option CSRFConfig) (c : Call) : Reply :=
  match cfg with
  | none => .next none
  | some cfg => CSRF cfg c

lemma collected (entries : List Entry) (c : CSRFConfig) :
    entries.foldl (fun c e =>
      if optedOut e then { c with excludePaths := c.excludePaths++[e.path] } else c) c =
    { c with excludePaths := c.excludePaths++(entries.filter optedOut).map (·.path) } := by
  induction entries generalizing c with
  | nil => simp
  | cons e entries ih =>
    rw [List.foldl_cons, ih]
    by_cases he : optedOut e
    · simp [he]
    · simp [he]

lemma initServer_enabled (entries : List Entry) {conf : CSRFConfig} (h : conf.enabled)
    (cookieCfg : Option CookieConf) :
    ∃ cfg, initServer entries (some conf) cookieCfg = some cfg ∧
      cfg.excludePaths = conf.excludePaths++(entries.filter optedOut).map (·.path) ∧
      cfg.jsonCheck = conf.jsonCheck ∧ cookieNameOf cfg = cookieNameOf conf ∧
      headerNameOf cfg = headerNameOf conf := by
  simp only [initServer, collectCSRFExclusions, Option.map_some, collected, convertCSRF,
    Option.filter_some, h, if_true]
  exact ⟨_,rfl,rfl,rfl,rfl,rfl⟩

section

variable (svc : Service) (entries : List Entry) (conf : CSRFConfig) (c : Call)

/-- The path is the item, or under the part before its `/*`. -/
def Covers (item path : String) : Prop :=
  (∃ base, item = base ++ "/*" ∧ (path = base ∨ ∃ rest, path = base ++ "/" ++ rest)) ∨
    hasSuffix item "/*" = false ∧ path = item

lemma covers_iff (item path : String) :
    Covers item path ↔ if hasSuffix item "/*" then
      path = trimSuffix item "/*" ∨ hasPrefix path (trimSuffix item "/*" ++ "/")
    else path = item := by
  by_cases hs : hasSuffix item "/*"
  · rw [if_pos hs]
    obtain ⟨base,rfl⟩ := (hasSuffix_iff _).mp hs
    rw [trimSuffix_append, hasPrefix_iff]
    constructor
    · rintro (⟨b,hb,ha⟩ | ⟨hno,-⟩)
      · rw [String.append_left_inj] at hb
        exact hb ▸ ha
      · exact absurd hs (by simp [hno])
    · exact fun ha => .inl ⟨base,rfl,ha⟩
  · rw [if_neg hs]
    constructor
    · rintro (⟨base,hb,-⟩ | ⟨-,ha⟩)
      · exact absurd ((hasSuffix_iff _).mpr ⟨base,hb⟩) hs
      · exact ha
    · exact fun ha => .inr ⟨by simpa using hs,ha⟩

instance (item path : String) : Decidable (Covers item path) :=
  decidable_of_iff _ (covers_iff item path).symm

def routed : Option Entry :=
  match registerEntries svc 0 (entries.map Entry.toDef) with
  | .error _ => none
  | .ok stack => (serve c.toRequest (stack.map Item.added)).bind fun out => entries[out.2]?

def OptedOut : Prop := (routed svc entries c).any optedOut = true

instance : Decidable (OptedOut svc entries c) := inferInstanceAs (Decidable (_ = true))

def Exempt : Prop :=
  OptedOut svc entries c ∨ ∃ item ∈ conf.excludePaths, Covers item c.pathText

instance : Decidable (Exempt svc entries conf c) := inferInstanceAs (Decidable (_ ∨ _))

def StateChanging : Prop := c.method ∉ ["GET","HEAD","OPTIONS"]

def TokensMatch : Prop :=
  c.get (headerNameOf conf) ≠ "" ∧ c.get (headerNameOf conf) = c.cookies (cookieNameOf conf)

structure Exact (cookieCfg : Option CookieConf) : Prop where
  exempt : (initServer entries (some conf) cookieCfg).any
    (fun cfg => isExcludedPath c.pathText cfg.excludePaths) = true ↔ Exempt svc entries conf c
  rejected : StateChanging c → ¬Exempt svc entries conf c → ¬TokensMatch conf c →
    applyCSRF (initServer entries (some conf) cookieCfg) c = .problem 403 "csrf token mismatch"

/-- An item that ends in `/*` reaches into paths without a slash there. -/
def Overreaches (item path : String) : Prop :=
  ∃ base a rest, item = base ++ "/*" ∧ path = base ++ String.singleton a ++ rest ∧ a ≠ '/'

/-- The four gaps of the exclusions. -/
structure NoGap : Prop where
  bounded : ∀ item ∈ conf.excludePaths, Overreaches item c.pathText → Exempt svc entries conf c
  own : ∀ e ∈ entries, optedOut e → excludes c.pathText e.path → Exempt svc entries conf c
  found : OptedOut svc entries c → (∃ item ∈ conf.excludePaths, excludes c.pathText item) ∨
    ∃ e ∈ entries, optedOut e ∧ excludes c.pathText e.path
  tokens : conf.jsonCheck → isJSONContentType c → StateChanging c →
    Exempt svc entries conf c ∨ TokensMatch conf c

variable {svc entries conf c} {cfg : CSRFConfig}

lemma empty_or_cons (t : String) : t = "" ∨ ∃ a rest, t = String.singleton a ++ rest := by
  cases ht : t.toList with
  | nil => exact .inl (String.toList_injective ht)
  | cons a rest =>
    refine .inr ⟨a,String.ofList rest,String.toList_injective ?_⟩
    simp [ht]

lemma excludes_iff {path : String} (item : String) (hp : path ≠ "") :
    excludes path item ↔ Covers item path ∨ Overreaches item path := by
  by_cases hs : hasSuffix item "/*"
  · obtain ⟨base,rfl⟩ := (hasSuffix_iff _).mp hs
    have hne : base ++ "/*" ≠ "" := by simp
    simp only [excludes, hne, hs, trimSuffix_append, if_true, ne_eq, not_false_eq_true,
      decide_true, Bool.true_and, hasPrefix_iff]
    constructor
    · rintro ⟨t,rfl⟩
      rcases empty_or_cons t with rfl | ⟨a,rest,rfl⟩
      · exact .inl (.inl ⟨base,rfl,.inl (by simp)⟩)
      · by_cases ha : a = '/'
        · subst ha
          exact .inl (.inl ⟨base,rfl,.inr ⟨rest,by rw [String.append_assoc]; rfl⟩⟩)
        · exact .inr ⟨base,a,rest,rfl,by rw [String.append_assoc],ha⟩
    · rw [covers_iff, if_pos hs, trimSuffix_append]
      rintro ((rfl | ht) | ⟨b,a,rest,hb,rfl,-⟩)
      · exact ⟨"",(String.append_empty).symm⟩
      · obtain ⟨rest,rfl⟩ := (hasPrefix_iff _ _).mp ht
        exact ⟨"/" ++ rest,String.append_assoc⟩
      · rw [String.append_left_inj] at hb
        exact ⟨String.singleton a ++ rest,hb ▸ String.append_assoc⟩
  · have hn : ∀ base, item ≠ base ++ "/*" := fun base hb =>
      hs ((hasSuffix_iff _).mpr ⟨base,hb⟩)
    simp only [excludes, hs, Bool.and_eq_true, decide_eq_true_eq]
    constructor
    · rintro ⟨-,he⟩
      have he : item = path := by simpa using he
      exact .inl (.inr ⟨by simpa using hs,he.symm⟩)
    · rintro ((⟨base,hb,-⟩ | ⟨-,rfl⟩) | ⟨base,a,rest,hb,-⟩)
      · exact absurd hb (hn base)
      · exact ⟨hp,by simp⟩
      · exact absurd hb (hn base)

lemma Call.pathText_ne (c : Call) : c.pathText ≠ "" := by
  intro h
  have hn : c.path = [] := by simpa [Call.pathText] using congrArg String.toList h
  have := c.rooted
  simp [hn] at this

lemma excluded_iff
    (hg : cfg.excludePaths = conf.excludePaths++(entries.filter optedOut).map (·.path)) :
    isExcludedPath c.pathText cfg.excludePaths ↔
      (∃ item ∈ conf.excludePaths, excludes c.pathText item) ∨
        ∃ e ∈ entries, optedOut e ∧ excludes c.pathText e.path := by
  simp [isExcludedPath, hg, List.any_append]

lemma mismatch_iff (hs : StateChanging c)
    (hx : isExcludedPath c.pathText cfg.excludePaths = false) :
    CSRF cfg c = .problem 403 "csrf token mismatch" ↔
      ¬(cfg.jsonCheck ∧ isJSONContentType c) ∧ ¬TokensMatch cfg c := by
  rw [CSRF, if_neg (by simp [hx]), if_neg c.unskipped, if_neg hs, TokensMatch]
  by_cases hj : cfg.jsonCheck && isJSONContentType c
  · rw [if_pos hj]
    rw [Bool.and_eq_true] at hj
    simp [hj]
  · rw [if_neg hj]
    rw [Bool.and_eq_true] at hj
    by_cases hh : c.get (headerNameOf cfg) = ""
    · simp [hj, hh]
    · by_cases hc : c.get (headerNameOf cfg) = c.cookies (cookieNameOf cfg)
      · simp [hj, hh, ← hc]
      · simp [hj, hh, hc]

lemma exempt_iff
    (hg : cfg.excludePaths = conf.excludePaths++(entries.filter optedOut).map (·.path)) :
    (isExcludedPath c.pathText cfg.excludePaths ↔ Exempt svc entries conf c) ↔
      (∀ item ∈ conf.excludePaths, Overreaches item c.pathText → Exempt svc entries conf c) ∧
      (∀ e ∈ entries, optedOut e → excludes c.pathText e.path → Exempt svc entries conf c) ∧
      (OptedOut svc entries c → (∃ item ∈ conf.excludePaths, excludes c.pathText item) ∨
        ∃ e ∈ entries, optedOut e ∧ excludes c.pathText e.path) := by
  rw [excluded_iff hg]
  constructor
  · intro h
    refine ⟨fun item hi ho => h.mp (.inl ⟨item,hi,?_⟩),
      fun e he ht hx => h.mp (.inr ⟨e,he,ht,hx⟩),fun ht => h.mpr (.inl ht)⟩
    exact (excludes_iff item c.pathText_ne).mpr (.inr ho)
  · rintro ⟨hb,hn,hu⟩
    constructor
    · rintro (⟨item,hi,hx⟩ | ⟨e,he,ht,hx⟩)
      · rcases (excludes_iff item c.pathText_ne).mp hx with hc | ho
        · exact .inr ⟨item,hi,hc⟩
        · exact hb item hi ho
      · exact hn e he ht hx
    · rintro (ht | ⟨item,hi,hc⟩)
      · exact hu ht
      · exact .inl ⟨item,hi,(excludes_iff item c.pathText_ne).mpr (.inl hc)⟩

/-- Exclusion is exact for a request if and only if it falls into none of the
gaps. -/
theorem exact_iff_noGap (svc : Service) (entries : List Entry) (conf : CSRFConfig)
    (henabled : conf.enabled) (cookieCfg : Option CookieConf) (c : Call) :
    Exact svc entries conf c cookieCfg ↔ NoGap svc entries conf c := by
  obtain ⟨cfg,hi,hpa,hn,ho,ha⟩ := initServer_enabled entries henabled cookieCfg
  have ht : TokensMatch cfg c ↔ TokensMatch conf c := by rw [TokensMatch, TokensMatch, ha, ho]
  have hl := @exempt_iff svc entries conf c cfg hpa
  constructor
  · intro h
    have hx : isExcludedPath c.pathText cfg.excludePaths ↔ Exempt svc entries conf c := by
      simpa [hi] using h.exempt
    obtain ⟨hb,how,hu⟩ := hl.mp hx
    refine ⟨hb,how,hu,fun hj hct hs => ?_⟩
    by_contra hno
    rw [not_or] at hno
    have he := h.rejected hs hno.1 hno.2
    rw [hi, applyCSRF, mismatch_iff hs (by simpa using mt hx.mp hno.1)] at he
    exact he.1 ⟨hn.trans hj,hct⟩
  · intro h
    have hx := hl.mpr ⟨h.bounded,h.own,h.found⟩
    refine ⟨by simpa [hi] using hx,fun hs hno hm => ?_⟩
    rw [hi, applyCSRF, mismatch_iff hs (by simpa using mt hx.mp hno)]
    refine ⟨fun hj => ?_,mt ht.mp hm⟩
    exact (h.tokens (hn.symm.trans hj.1) hj.2 hs).elim hno hm

def hookEntry (path : String) (csrf : Option Bool) : Entry where
  toDef := restEntry "POST" path
  csrf := csrf

def bareCall (path : List Char) (hp : path.head? = some '/') : Call where
  method := "POST"
  path := path
  get := fun _ => ""
  cookies := fun _ => ""
  generated := some "token"
  locals := []
  unskipped := List.not_mem_nil
  rooted := hp

def rootService : Service := { plainService with pre := "" }

def hookCall : Call := bareCall "/hook".toList rfl

theorem exact_iff_noGap_hook :
    Exact rootService [hookEntry "/hook" (some false)] { enabled := true } hookCall none ↔
      NoGap rootService [hookEntry "/hook" (some false)] { enabled := true } hookCall :=
  exact_iff_noGap rootService [hookEntry "/hook" (some false)] { enabled := true } rfl none hookCall

/-- Under a prefix an entry that opts out is checked at its own path, and an
item that ends in `/*` opens a sibling of the part before it. -/
theorem exclusions_by_text :
    (OptedOut plainService [hookEntry "/hook" (some false)] (bareCall "/api/v1/hook".toList rfl) ∧
      applyCSRF (initServer [hookEntry "/hook" (some false)] (some { enabled := true }) none)
        (bareCall "/api/v1/hook".toList rfl) = .problem 403 "csrf token mismatch") ∧
    (routed rootService [hookEntry "/publish" none] (bareCall "/publish".toList rfl)).isSome ∧
      ¬Exempt rootService [hookEntry "/publish" none]
        { enabled := true, excludePaths := ["/pub/*"] } (bareCall "/publish".toList rfl) ∧
      applyCSRF (initServer [hookEntry "/publish" none]
        (some { enabled := true, excludePaths := ["/pub/*"] }) none)
        (bareCall "/publish".toList rfl) = .next none := by
  exact ⟨⟨by decide,by decide⟩,by decide,by decide,by decide⟩

end

end SdkApi.CsrfExclusions
