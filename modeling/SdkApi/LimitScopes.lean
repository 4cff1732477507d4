import SdkApi.LimiterIsolation
import SdkApi.RoleMiddleware

/-!
# The scopes of a service's rate limits

A service limits all its requests and each address in front of everything,
each entry on its path, and users, API keys and roles after the
authentication of an entry. A limit is a scope, the entry it is configured
for, if it is not the server's, and an id. The limits after authentication
share three maps keyed by the bare id, and with Redis the names of the
buckets do not contain the entry.
-/

namespace SdkApi.LimitScopes
open RequestContext Limiters LimiterStore LimiterIsolation Unwinding List Option
open RoleMiddleware (extractUserID extractKeyID)

/-- `server.rate_limit`; `kv` says that it names a connection that exists. -/
structure RateLimitConf where
  enabled : Bool := true
  global : Option RateLimitEntry := none
  perIP : Option RateLimitEntry := none
  perUser : Option RateLimitEntry := none
  perKey : Option RateLimitEntry := none
  algorithm : String := ""
  ttl : ℤ := 0
  skipFailedRequests : Bool := false
  skipSuccessfulRequests : Bool := false
  kv : Bool := false

/-- `authenticated` says that a mode registers limits behind it. -/
structure EntryLimits where
  authenticated : Bool := true
  rateLimit : Option RateLimitEntry := none
  rateLimitPerUser : Option RateLimitEntry := none
  rateLimitPerKey : Option RateLimitEntry := none
  perRoleLimits : List (String × RateLimitEntry) := []

structure Service where
  rateLimit : Option RateLimitConf := none
  entries : List EntryLimits := []
  maxFunc : Option (Ctx → ℤ) := none

structure RateLimitConfig where
  global : Option RateLimitEntry := none
  perIP : Option RateLimitEntry := none
  algorithm : String := ""
  ttl : ℤ := 0
  skipFailedRequests : Bool := false
  skipSuccessfulRequests : Bool := false
  redisConn : Bool := false

structure RateLimitPostConfig where
  serverPerUser : Option RateLimitEntry := none
  serverPerKey : Option RateLimitEntry := none
  entryPerUser : Option RateLimitEntry := none
  entryPerKey : Option RateLimitEntry := none
  perRoleLimits : List (String × RateLimitEntry) := []
  maxFunc : Option (Ctx → ℤ) := none
  algorithm : String := ""
  ttl : ℤ := 0
  redisConn : Bool := false

/-- The middleware in front of all entries never gets the connection. -/
def convertRateLimit (conf : Option RateLimitConf) : Option RateLimitConfig :=
  (conf.filter (·.enabled)).map fun cfg => {
    global := cfg.global, perIP := cfg.perIP, algorithm := cfg.algorithm, ttl := cfg.ttl,
    skipFailedRequests := cfg.skipFailedRequests,
    skipSuccessfulRequests := cfg.skipSuccessfulRequests }

namespace Service

variable (s : Service)

def rlAlgorithm : String := (s.rateLimit.map (·.algorithm)).getD ""

def rlTTL : ℤ := (s.rateLimit.map (·.ttl)).getD 0

def rlRedis : Bool := (s.rateLimit.map (·.kv)).getD false

def serverPerUser : Option RateLimitEntry := s.rateLimit.bind (·.perUser)

def serverPerKey : Option RateLimitEntry := s.rateLimit.bind (·.perKey)

def registerEntryRateLimit (entry : EntryLimits) : Option RateLimitConfig :=
  match entry.rateLimit with
  | none => none
  | some r =>
    if r.requestsPerSecond ≤ 0 then none
    else some {
      global := some r, algorithm := s.rlAlgorithm, ttl := s.rlTTL, redisConn := s.rlRedis }

def postConfig (entry : EntryLimits) : RateLimitPostConfig where
  serverPerUser := s.serverPerUser
  serverPerKey := s.serverPerKey
  entryPerUser := entry.rateLimitPerUser
  entryPerKey := entry.rateLimitPerKey
  perRoleLimits := entry.perRoleLimits
  maxFunc := s.maxFunc
  algorithm := s.rlAlgorithm
  ttl := s.rlTTL
  redisConn := s.rlRedis

def buildPostAuthRL (entry : EntryLimits) : Option RateLimitPostConfig :=
  let cfg := s.postConfig entry
  if cfg.serverPerUser.isNone && cfg.serverPerKey.isNone && cfg.entryPerUser.isNone &&
      cfg.entryPerKey.isNone && cfg.perRoleLimits.isEmpty then none
  else some cfg

/-- The configuration of a `RateLimit` middleware. -/
def pre : Place → Option RateLimitConfig
  | .server => convertRateLimit s.rateLimit
  | .entry n => s.entries[n]?.bind s.registerEntryRateLimit
  | .post _ => none

def limited (n : ℕ) : Option EntryLimits := s.entries[n]?.filter (·.authenticated)

/-- The configuration of a `RateLimitPost` middleware. -/
def post : Place → Option RateLimitPostConfig
  | .server => none
  | .entry _ => none
  | .post n => (s.limited n).bind s.buildPostAuthRL

end Service

structure Check where
  slot : Slot
  entry : RateLimitEntry

/-- The check of a limit, which is left out without a positive rate. -/
def checkLimit (slot : Slot) (entry : Option RateLimitEntry) : List Check :=
  match entry with
  | none => []
  | some r => if r.requestsPerSecond ≤ 0 then [] else [⟨slot,r⟩]

/-- The checks of `RateLimit`, in their order. -/
def RateLimitConfig.checks (cfg : RateLimitConfig) (ip : String) : List Check :=
  checkLimit .global cfg.global++checkLimit (.keyed .ip ip) cfg.perIP

def resolvePostEntry (entry : Option RateLimitEntry) (c : Ctx) (maxFunc : Option (Ctx → ℤ)) :
    Option RateLimitEntry :=
  entry.map fun e =>
    match maxFunc with
    | none => e
    | some f => if 0 < f c then ⟨f c,f c,e.ttl⟩ else e

def checkPostLimit (cfg : RateLimitPostConfig) (c : Ctx) (entry : Option RateLimitEntry)
    (scope : Scope) (extract : Ctx → String) : List Check :=
  if extract c = "" then []
  else checkLimit (.keyed scope (extract c)) (resolvePostEntry entry c cfg.maxFunc)

def checkRoleLimits (cfg : RateLimitPostConfig) (c : Ctx) : List Check :=
  match c.auth with
  | none => []
  | some auth => auth.roles.flatMap fun role =>
    checkLimit (.keyed .role role) (cfg.perRoleLimits.lookup role)

/-- The checks of `RateLimitPost`, in their order. -/
def RateLimitPostConfig.checks (cfg : RateLimitPostConfig) (c : Ctx) : List Check :=
  checkPostLimit cfg c cfg.serverPerUser .user extractUserID++
  checkPostLimit cfg c cfg.serverPerKey .key extractKeyID++
  checkRoleLimits cfg c++
  checkPostLimit cfg c cfg.entryPerUser .entryUser extractUserID++
  checkPostLimit cfg c cfg.entryPerKey .entryKey extractKeyID

def newSettings (algorithm : String) (ttl : ℤ) (redisConn : Bool) : Settings where
  rdb := redisConn
  alg := if algorithm = "" then algorithmSlidingWindow else algorithm
  ttl := ttl

namespace Service

variable (s : Service)

def settings (p : Place) : Settings :=
  match s.pre p, s.post p with
  | some cfg, _ => newSettings cfg.algorithm cfg.ttl cfg.redisConn
  | none, some cfg => newSettings cfg.algorithm cfg.ttl cfg.redisConn
  | none, none => {}

def checks (p : Place) (ip : String) (c : Ctx) : List Check :=
  ((s.pre p).map (·.checks ip)).getD []++((s.post p).map (·.checks c)).getD []

def start (db : Redis) : System where
  cells p cell :=
    match cell with
    | .global =>
      let entry := ((s.pre p).bind (·.global)).filter (0 < ·.requestsPerSecond)
      ⟨1,entry.map fun r => { limiter := newLimiter Slot.global.rlKey r (s.settings p) }⟩
    | .held _ _ => {}
  redis := db

end Service

/-- A limiter is told by its cell and its number there. -/
inductive Event where
  | pass (p : Place) (ip : String) (c : Ctx) (moments : ℕ → Moment)
  | respond (p : Place) (ip : String) (c : Ctx) (created : ℕ → ℕ) (status : ℕ)
  | gc (p : Place) (now : ℤ)

def shouldSkipRequest (cfg : RateLimitConfig) (code : ℕ) : Bool :=
  (cfg.skipFailedRequests && 400 ≤ code) || (cfg.skipSuccessfulRequests && code < 400)

namespace Service

variable (s : Service)

/-- The limiters of an uncounted response are given back. -/
def actions (σ : System) : Event → List Action
  | .pass p ip c moments =>
    untilRefused (step s.settings) σ
      ((s.checks p ip c).mapIdx fun i check => .check p check.slot check.entry (moments i))
  | .respond p ip c created status =>
    if (s.pre p).any (shouldSkipRequest · status) then
      (s.checks p ip c).mapIdx fun i check => .cancel p check.slot (created i)
    else []
  | .gc p now => [.gc p now]

def performed (db : Redis) (history : List Event) : List Action :=
  Unwinding.performed (step s.settings) s.actions (s.start db) history

def log (db : Redis) (history : List Event) : List (Action × Bool) :=
  trace (step s.settings) (s.start db) (s.performed db history)

def state (db : Redis) (history : List Event) : System :=
  final (step s.settings) (s.start db) (s.performed db history)

end Service

inductive LimitScope where
  | serverGlobal
  | entryLimit
  | perIP
  | serverPerUser
  | serverPerKey
  | perRole
  | entryPerUser
  | entryPerKey
  deriving DecidableEq

structure Triple where
  scope : LimitScope
  entry : Option ℕ
  key : String
  deriving DecidableEq

def entryOf : Place → Option ℕ
  | .server => none
  | .entry n => some n
  | .post n => some n

/-- The limits of the server are the same at every entry. -/
def triple (p : Place) : Slot → Triple
  | .global => ⟨if p = .server then .serverGlobal else .entryLimit,entryOf p,""⟩
  | .keyed .ip key => ⟨.perIP,none,key⟩
  | .keyed .user key => ⟨.serverPerUser,none,key⟩
  | .keyed .key key => ⟨.serverPerKey,none,key⟩
  | .keyed .role key => ⟨.perRole,entryOf p,key⟩
  | .keyed .entryUser key => ⟨.entryPerUser,entryOf p,key⟩
  | .keyed .entryKey key => ⟨.entryPerKey,entryOf p,key⟩

def Configured (s : Service) (p : Place) (slot : Slot) (entry : RateLimitEntry) : Prop :=
  ∃ ip c, (⟨slot,entry⟩ : Check) ∈ s.checks p ip c

namespace Service

variable (s : Service)

def decided (db : Redis) (history : List Event) (t : Triple) : List (Action × Bool) :=
  (s.log db history).filter fun r => concerns triple t r.1

/-- What becomes of the same checks when no others are made. -/
def alone (db : Redis) (history : List Event) (t : Triple) : List (Action × Bool) :=
  trace (step s.settings) (s.start db) ((s.performed db history).filter (concerns triple t))

end Service

/-- A limit has its own buckets and decides as if it were alone. -/
structure Isolated (s : Service) : Prop where
  buckets : ∀ {p q slot slot' e e'}, Configured s p slot e → Configured s q slot' e' →
    triple p slot ≠ triple q slot' → (p,slot.cell) ≠ (q,slot'.cell) ∧
      ((s.settings p).rdb = true → (s.settings q).rdb = true → slot.rlKey ≠ slot'.rlKey)
  parameters : ∀ db history p slot e es, Configured s p slot e →
    ((s.state db history).cells p slot.cell).state = some es →
    ∃ e', Configured s p slot e' ∧
      es.limiter.origin = newLimiter slot.rlKey e' (s.settings p)
  decisions : ∀ db history t, s.decided db history t = s.alone db history t

namespace Service

variable (s : Service)

def Enforced (entry : Option RateLimitEntry) (c : Ctx) : Prop :=
  ∃ r, resolvePostEntry entry c s.maxFunc = some r ∧ 0 < r.requestsPerSecond

def OwnLimit (n : ℕ) : Prop :=
  ∃ entry r, s.entries[n]? = some entry ∧ entry.rateLimit = some r ∧ 0 < r.requestsPerSecond

def RoleLimit (n : ℕ) (role : String) : Prop :=
  ∃ entry r, s.limited n = some entry ∧ entry.perRoleLimits.lookup role = some r ∧
    0 < r.requestsPerSecond

def IdLimit (n : ℕ) (extract : Ctx → String) (limit : EntryLimits → Option RateLimitEntry)
    (c : Ctx) : Prop :=
  ∃ entry, s.limited n = some entry ∧ extract c ≠ "" ∧ s.Enforced (limit entry) c

def UserLimit (n : ℕ) : Ctx → Prop := s.IdLimit n extractUserID (·.rateLimitPerUser)

def KeyLimit (n : ℕ) : Ctx → Prop := s.IdLimit n extractKeyID (·.rateLimitPerKey)

def ServerUserLimit (n : ℕ) : Ctx → Prop := s.IdLimit n extractUserID fun _ => s.serverPerUser

def ServerKeyLimit (n : ℕ) : Ctx → Prop := s.IdLimit n extractKeyID fun _ => s.serverPerKey

end Service

/-- No two limits share an id at an entry, nor with Redis two entries. -/
structure Separated (s : Service) : Prop where
  users : ∀ n c, s.ServerUserLimit n c → ¬s.UserLimit n c
  keys : ∀ n c, s.ServerKeyLimit n c → ¬s.KeyLimit n c
  roles : ∀ n c, s.RoleLimit n (extractUserID c) → ¬s.ServerUserLimit n c ∧ ¬s.UserLimit n c
  sharedOwn : s.rlRedis = true → ∀ n m, s.OwnLimit n → s.OwnLimit m → n = m
  sharedRoles : s.rlRedis = true → ∀ n m role, s.RoleLimit n role → s.RoleLimit m role → n = m
  sharedUsers : s.rlRedis = true → ∀ n m c, s.UserLimit n c → s.UserLimit m c → n = m
  sharedKeys : s.rlRedis = true → ∀ n m c, s.KeyLimit n c → s.KeyLimit m c → n = m

section

variable {s : Service} {n m : ℕ} {c c' : Ctx} {slot : Slot} {check : Check} {ip : String}
  {entry : Option RateLimitEntry} {cfg : RateLimitPostConfig}

lemma mem_checkLimit : check ∈ checkLimit slot entry ↔
    check.slot = slot ∧ entry = some check.entry ∧ 0 < check.entry.requestsPerSecond := by
  obtain ⟨slot',r'⟩ := check
  cases entry with
  | none => simp [checkLimit]
  | some r =>
    simp only [checkLimit]
    split
    · rename_i hr
      constructor
      · intro h
        cases h
      · rintro ⟨-,h,ho⟩
        cases h
        exact absurd ho (not_lt.mpr hr)
    · rename_i hr
      simp only [mem_singleton, Check.mk.injEq, some.injEq]
      constructor
      · rintro ⟨rfl,rfl⟩
        exact ⟨rfl,rfl,not_le.mp hr⟩
      · rintro ⟨rfl,rfl,-⟩
        exact ⟨rfl,rfl⟩

lemma mem_checkPostLimit {scope : Scope} {extract : Ctx → String} :
    check ∈ checkPostLimit cfg c entry scope extract ↔ extract c ≠ "" ∧
      check.slot = .keyed scope (extract c) ∧
      resolvePostEntry entry c cfg.maxFunc = some check.entry ∧
      0 < check.entry.requestsPerSecond := by
  unfold checkPostLimit
  split
  · rename_i hi
    simp [hi]
  · rename_i hi
    rw [mem_checkLimit]
    exact ⟨fun h => ⟨hi,h⟩,fun h => h.2⟩

lemma mem_checkRoleLimits : check ∈ checkRoleLimits cfg c ↔
    ∃ auth role, c.auth = some auth ∧ role ∈ auth.roles ∧ check.slot = .keyed .role role ∧
      cfg.perRoleLimits.lookup role = some check.entry ∧
      0 < check.entry.requestsPerSecond := by
  unfold checkRoleLimits
  cases ha : c.auth with
  | none => simp
  | some auth =>
    simp only [mem_flatMap, mem_checkLimit, some.injEq]
    constructor
    · rintro ⟨role,ho,h⟩
      exact ⟨auth,role,rfl,ho,h⟩
    · rintro ⟨_,role,rfl,ho,h⟩
      exact ⟨role,ho,h⟩

lemma checks_of_buildPostAuthRL (s : Service) (entry : EntryLimits) (c : Ctx) :
    ((s.buildPostAuthRL entry).map (·.checks c)).getD [] = (s.postConfig entry).checks c := by
  simp only [Service.buildPostAuthRL]
  split
  · rename_i hn
    simp only [Bool.and_eq_true, isNone_iff_eq_none, List.isEmpty_iff] at hn
    obtain ⟨⟨⟨⟨hu,hy⟩,he⟩,hk⟩,ho⟩ := hn
    have ht : ∀ scope extract, checkPostLimit (s.postConfig entry) c none scope extract = [] := by
      intro scope extract
      unfold checkPostLimit
      split <;> rfl
    have hl : checkRoleLimits (s.postConfig entry) c = [] := by
      unfold checkRoleLimits
      rw [ho]
      split
      · rfl
      · simp [checkLimit]
    simp only [RateLimitPostConfig.checks, hu, hy, he, hk, ht, hl,
      map_none, getD_none, append_nil]
  · rfl

lemma mem_checks_post : check ∈ s.checks (.post n) ip c ↔
    ∃ entry, s.limited n = some entry ∧ check ∈ (s.postConfig entry).checks c := by
  simp only [Service.checks, Service.pre, Service.post, map_none, getD_none,
    nil_append]
  cases he : s.limited n with
  | none => simp
  | some entry =>
    simp only [bind_some, checks_of_buildPostAuthRL, some.injEq]
    constructor
    · intro h
      exact ⟨entry,rfl,h⟩
    · rintro ⟨_,rfl,h⟩
      exact h

lemma mem_checks_entry : check ∈ s.checks (.entry n) ip c ↔
    ∃ entry, s.entries[n]? = some entry ∧ check.slot = .global ∧
      entry.rateLimit = some check.entry ∧ 0 < check.entry.requestsPerSecond := by
  simp only [Service.checks, Service.pre, Service.post, map_none, getD_none,
    append_nil]
  cases he : s.entries[n]? with
  | none => simp
  | some entry =>
    simp only [bind_some, Service.registerEntryRateLimit, some.injEq, exists_eq_left']
    cases hl : entry.rateLimit with
    | none => simp
    | some r =>
      simp only
      split
      · rename_i hr
        simp only [map_none, getD_none, not_mem_nil, some.injEq, false_iff]
        rintro ⟨-,rfl,ho⟩
        exact absurd ho (not_lt.mpr hr)
      · simp only [map_some, getD_some, RateLimitConfig.checks, mem_append,
          mem_checkLimit, reduceCtorEq, false_and, and_false, or_false]

lemma slot_of_mem_checks_server (h : check ∈ s.checks .server ip c) :
    check.slot = .global ∨ check.slot = .keyed .ip ip := by
  simp only [Service.checks, Service.post, map_none, getD_none, append_nil] at h
  cases hg : s.pre .server with
  | none => simp [hg] at h
  | some cfg =>
    simp only [hg, map_some, getD_some, RateLimitConfig.checks, mem_append,
      mem_checkLimit] at h
    exact h.imp And.left And.left

end

section

variable {s : Service} {n m : ℕ} {c c' : Ctx} {slot : Slot} {entry : RateLimitEntry}

def Counts (s : Service) (n : ℕ) : Scope → String → Prop
  | .ip, _ => False
  | .user, key => ∃ c, extractUserID c = key ∧ s.ServerUserLimit n c
  | .key, key => ∃ c, extractKeyID c = key ∧ s.ServerKeyLimit n c
  | .role, key => s.RoleLimit n key
  | .entryUser, key => ∃ c, extractUserID c = key ∧ s.UserLimit n c
  | .entryKey, key => ∃ c, extractKeyID c = key ∧ s.KeyLimit n c

lemma counts_of_configured (h : Configured s (.post n) slot entry) :
    ∃ scope key, slot = .keyed scope key ∧ Counts s n scope key := by
  obtain ⟨ip,c,hm⟩ := h
  obtain ⟨limits,hl,hm⟩ := mem_checks_post.mp hm
  simp only [RateLimitPostConfig.checks, mem_append, mem_checkPostLimit,
    mem_checkRoleLimits] at hm
  rcases hm with (((⟨hi,ho,hr⟩ | ⟨hi,ho,hr⟩) | ⟨_,role,_,_,ho,hr⟩) | ⟨hi,ho,hr⟩) | ⟨hi,ho,hr⟩
  · exact ⟨.user,extractUserID c,ho,c,rfl,limits,hl,hi,entry,hr⟩
  · exact ⟨.key,extractKeyID c,ho,c,rfl,limits,hl,hi,entry,hr⟩
  · exact ⟨.role,role,ho,limits,entry,hl,hr⟩
  · exact ⟨.entryUser,extractUserID c,ho,c,rfl,limits,hl,hi,entry,hr⟩
  · exact ⟨.entryKey,extractKeyID c,ho,c,rfl,limits,hl,hi,entry,hr⟩

def withRole (role : String) : Ctx where
  req := ⟨fun _ => "",[],fun _ => ""⟩
  auth := some { userID := "", roles := [role] }

lemma configured_of_counts {scope : Scope} {key : String} (h : Counts s n scope key) :
    ∃ entry, Configured s (.post n) (.keyed scope key) entry := by
  have hm : ∀ c limits r, s.limited n = some limits →
      (⟨.keyed scope key,r⟩ : Check) ∈ (s.postConfig limits).checks c →
      ∃ entry, Configured s (.post n) (.keyed scope key) entry := by
    intro c limits r hl hr
    exact ⟨r,"",c,mem_checks_post.mpr ⟨limits,hl,hr⟩⟩
  cases scope with
  | ip => exact h.elim
  | role =>
    obtain ⟨limits,r,hl,ho,hpo⟩ := h
    apply hm (withRole key) limits r hl
    simp only [RateLimitPostConfig.checks, mem_append, mem_checkRoleLimits]
    exact .inl (.inl (.inr ⟨_,key,rfl,mem_singleton_self key,rfl,ho,hpo⟩))
  | user | key | entryUser | entryKey =>
    obtain ⟨c,rfl,limits,hl,hi,r,hr⟩ := h
    apply hm c limits r hl
    simp [RateLimitPostConfig.checks, mem_checkPostLimit, Service.postConfig]
    tauto

lemma configured_entry (h : Configured s (.entry n) slot entry) :
    slot = .global ∧ s.OwnLimit n := by
  obtain ⟨ip,c,hm⟩ := h
  obtain ⟨limits,hl,ho,hr⟩ := mem_checks_entry.mp hm
  exact ⟨ho,limits,entry,hl,hr⟩

lemma configured_of_ownLimit (h : s.OwnLimit n) :
    ∃ entry, Configured s (.entry n) .global entry := by
  obtain ⟨limits,r,hl,hr⟩ := h
  exact ⟨r,"",withRole "",mem_checks_entry.mpr ⟨limits,hl,rfl,hr⟩⟩

lemma enforced_iff {limit : Option RateLimitEntry} : s.Enforced limit c ↔
    ∃ r, limit = some r ∧
      (0 < r.requestsPerSecond ∨ ∃ f, s.maxFunc = some f ∧ 0 < f c) := by
  unfold Service.Enforced resolvePostEntry
  cases limit with
  | none => simp
  | some r =>
    simp only [map_some, some.injEq, exists_eq_left']
    cases hm : s.maxFunc with
    | none => simp
    | some f =>
      by_cases hf : 0 < f c
      · simp [hf]
      · simp [hf]

lemma idLimit_common {extract : Ctx → String} {f g : EntryLimits → Option RateLimitEntry}
    (h : s.IdLimit n extract f c) (h' : s.IdLimit m extract g c') :
    ∃ d, s.IdLimit n extract f d ∧ s.IdLimit m extract g d := by
  obtain ⟨entry,he,hi,hn⟩ := h
  obtain ⟨entry',he',hi',hn'⟩ := h'
  obtain ⟨r,hr,-⟩ := enforced_iff.mp hn
  obtain ⟨r',hr',ho | hm⟩ := enforced_iff.mp hn'
  · have hb : s.Enforced (g entry') c := enforced_iff.mpr ⟨r',hr',.inl ho⟩
    exact ⟨c,⟨entry,he,hi,hn⟩,entry',he',hi,hb⟩
  · have hb : s.Enforced (f entry) c' := enforced_iff.mpr ⟨r,hr,.inr hm⟩
    exact ⟨c',⟨entry,he,hi',hb⟩,entry',he',hi',hn'⟩

variable {p : Place}

lemma rdb_server (s : Service) : (s.settings .server).rdb = false := by
  simp only [Service.settings, Service.pre, Service.post, convertRateLimit]
  cases s.rateLimit.filter (·.enabled) <;> rfl

lemma rdb_entry {n : ℕ} (h : s.OwnLimit n) : (s.settings (.entry n)).rdb = s.rlRedis := by
  obtain ⟨limits,r,hl,hi,ho⟩ := h
  simp only [Service.settings, Service.pre, Service.post, hl, bind_some,
    Service.registerEntryRateLimit, hi, if_neg (not_le.mpr ho)]
  rfl

lemma rdb_post {n : ℕ} (h : Configured s (.post n) slot entry) :
    (s.settings (.post n)).rdb = s.rlRedis := by
  obtain ⟨ip,c,hm⟩ := h
  simp only [Service.checks, Service.pre, Service.post, map_none, getD_none,
    nil_append] at hm
  simp only [Service.settings, Service.pre, Service.post]
  cases hl : s.limited n with
  | none => simp [hl] at hm
  | some limits =>
    simp only [hl, bind_some] at hm ⊢
    cases hg : s.buildPostAuthRL limits with
    | none => simp [hg] at hm
    | some cfg =>
      simp only [Service.buildPostAuthRL] at hg
      split at hg
      · cases hg
      · cases hg
        rfl

def slotOf (t : Triple) : Slot :=
  match t.scope with
  | .serverGlobal => .global
  | .entryLimit => .global
  | .perIP => .keyed .ip t.key
  | .serverPerUser => .keyed .user t.key
  | .serverPerKey => .keyed .key t.key
  | .perRole => .keyed .role t.key
  | .entryPerUser => .keyed .entryUser t.key
  | .entryPerKey => .keyed .entryKey t.key

lemma slotOf_triple (p : Place) (slot : Slot) : slotOf (triple p slot) = slot := by
  cases slot with
  | global =>
    simp only [triple]
    split <;> rfl
  | keyed scope key => cases scope <;> rfl

section

variable (h : Separated s) {n m : ℕ} {key : String} {e e' : RateLimitEntry}
include h

lemma not_user_entryUser (ha : Counts s n .user key) (hb : Counts s n .entryUser key) : False := by
  obtain ⟨c,-,hc⟩ := ha
  obtain ⟨c',-,hc'⟩ := hb
  obtain ⟨d,he,hu⟩ := idLimit_common hc hc'
  exact h.users n d he hu

lemma not_key_entryKey (ha : Counts s n .key key) (hb : Counts s n .entryKey key) : False := by
  obtain ⟨c,-,hc⟩ := ha
  obtain ⟨c',-,hc'⟩ := hb
  obtain ⟨d,he,hk⟩ := idLimit_common hc hc'
  exact h.keys n d he hk

lemma not_role_user (ha : Counts s n .role key) (hb : Counts s n .user key) : False := by
  obtain ⟨c,rfl,hc⟩ := hb
  exact (h.roles n c ha).1 hc

lemma not_role_entryUser (ha : Counts s n .role key) (hb : Counts s n .entryUser key) : False := by
  obtain ⟨c,rfl,hc⟩ := hb
  exact (h.roles n c ha).2 hc

lemma counts_unique {a b : Scope} (ha : Counts s n a key) (hb : Counts s n b key)
    (ht : a.table = b.table) : a = b := by
  cases a <;> cases b <;> first
    | rfl
    | exact absurd ht (by decide)
    | exact (not_user_entryUser h ha hb).elim
    | exact (not_user_entryUser h hb ha).elim
    | exact (not_key_entryKey h ha hb).elim
    | exact (not_key_entryKey h hb ha).elim
    | exact (not_role_user h ha hb).elim
    | exact (not_role_user h hb ha).elim
    | exact (not_role_entryUser h ha hb).elim
    | exact (not_role_entryUser h hb ha).elim

lemma counts_triple (he : s.rlRedis) {scope : Scope} (ha : Counts s n scope key)
    (hb : Counts s m scope key) :
    triple (.post n) (.keyed scope key) = triple (.post m) (.keyed scope key) := by
  cases scope with
  | ip | user | key => rfl
  | role => rw [h.sharedRoles he n m key ha hb]
  | entryUser =>
    obtain ⟨c,-,hc⟩ := ha
    obtain ⟨c',-,hc'⟩ := hb
    obtain ⟨d,hn,hm⟩ := idLimit_common hc hc'
    rw [h.sharedUsers he n m d hn hm]
  | entryKey =>
    obtain ⟨c,-,hc⟩ := ha
    obtain ⟨c',-,hc'⟩ := hb
    obtain ⟨d,hn,hm⟩ := idLimit_common hc hc'
    rw [h.sharedKeys he n m d hn hm]

lemma separated_cell {p : Place} {slot slot' : Slot} (ha : Configured s p slot e)
    (hb : Configured s p slot' e') (he : slot.cell = slot'.cell) : slot = slot' := by
  cases p with
  | server =>
    obtain ⟨ip,c,ha⟩ := ha
    obtain ⟨ip',c',hb⟩ := hb
    rcases slot_of_mem_checks_server ha with rfl | rfl
    · rcases slot_of_mem_checks_server hb with rfl | rfl
      · rfl
      · cases he
    · rcases slot_of_mem_checks_server hb with rfl | rfl
      · cases he
      · cases he
        rfl
  | entry n => rw [(configured_entry ha).1, (configured_entry hb).1]
  | post n =>
    obtain ⟨scope,key,rfl,ho⟩ := counts_of_configured ha
    obtain ⟨scope',key',rfl,hc'⟩ := counts_of_configured hb
    injection he with ht hk
    subst hk
    rw [counts_unique h ho hc' ht]

lemma separated_redis {p q : Place} {slot : Slot} (ha : Configured s p slot e)
    (hb : Configured s q slot e') (hp : (s.settings p).rdb) (hq : (s.settings q).rdb) :
    triple p slot = triple q slot := by
  cases p with
  | server =>
    rw [rdb_server] at hp
    cases hp
  | entry n =>
    obtain ⟨rfl,hn⟩ := configured_entry ha
    rw [rdb_entry hn] at hp
    cases q with
    | server =>
      rw [rdb_server] at hq
      cases hq
    | entry m => rw [h.sharedOwn hp n m hn (configured_entry hb).2]
    | post m =>
      obtain ⟨_,_,hl,-⟩ := counts_of_configured hb
      cases hl
  | post n =>
    rw [rdb_post ha] at hp
    obtain ⟨scope,key,rfl,ho⟩ := counts_of_configured ha
    cases q with
    | server =>
      rw [rdb_server] at hq
      cases hq
    | entry m => cases (configured_entry hb).1
    | post m =>
      obtain ⟨_,_,hl,hc'⟩ := counts_of_configured hb
      cases hl
      exact counts_triple h hp ho hc'

lemma apart_of_separated : Apart s.settings (Configured s) triple where
  cell := separated_cell h
  redis := separated_redis h
  slot := by
    intro p q slot slot' ht
    rw [← slotOf_triple p slot, ht, slotOf_triple]

end

end

section

variable {s : Service} {key : String}

lemma start_made (s : Service) (db : Redis) : Made s.settings (Configured s) (s.start db) := by
  intro p cell es he
  cases cell with
  | held table key => cases he
  | global =>
    simp only [Service.start, map_eq_some_iff, filter_eq_some_iff,
      bind_eq_some_iff, decide_eq_true_eq] at he
    obtain ⟨r,⟨⟨cfg,hcf,hg⟩,ho⟩,rfl⟩ := he
    refine ⟨.global,r,⟨"",withRole "",?_⟩,rfl,newLimiter_origin⟩
    have hm : (⟨.global,r⟩ : Check) ∈ cfg.checks "" :=
      mem_append_left _ (mem_checkLimit.mpr ⟨rfl,hg,ho⟩)
    simp only [Service.checks, hcf, map_some, getD_some]
    exact mem_append_left _ hm

lemma admissible_of_mem_actions (σ : System) (event : Event) :
    ∀ a ∈ s.actions σ event, Admissible (Configured s) a := by
  intro a ha
  cases event with
  | pass p ip c moments =>
    obtain ⟨i,hi,rfl⟩ := mem_mapIdx.mp (mem_of_untilRefused _ ha)
    exact ⟨ip,c,getElem_mem hi⟩
  | respond p ip c created status =>
    simp only [Service.actions] at ha
    split at ha
    · obtain ⟨i,hi,rfl⟩ := mem_mapIdx.mp ha
      exact ⟨_,ip,c,getElem_mem hi⟩
    · cases ha
  | gc p now =>
    cases mem_singleton.mp ha
    trivial

lemma admissible_of_mem_performed (s : Service) (db : Redis) (history : List Event) :
    ∀ a ∈ s.performed db history, Admissible (Configured s) a :=
  mem_performed admissible_of_mem_actions _ history

lemma state_made (s : Service) (db : Redis) (history : List Event) :
    Made s.settings (Configured s) (s.state db history) :=
  final_invariant step_made (start_made s db) (admissible_of_mem_performed s db history)

lemma isolated_of_separated (h : Separated s) : Isolated s where
  buckets := by
    intro p q slot slot' e e' ha hb ht
    constructor
    · intro hm
      obtain ⟨rfl,he⟩ := Prod.mk.inj hm
      rw [separated_cell h ha hb he] at ht
      exact ht rfl
    · intro hp hq hname
      cases rlKey_injective hname
      exact ht (separated_redis h ha hb hp hq)
  parameters := by
    intro db history p slot e es ha hes
    obtain ⟨slot',e',hb,he,ho⟩ := state_made s db history p slot.cell es hes
    cases separated_cell h hb ha he
    exact ⟨e',hb,ho⟩
  decisions := by
    intro db history t
    exact trace_alone (apart_of_separated h) (start_made s db)
      (admissible_of_mem_performed s db history) t

lemma counts_same_table (h : Isolated s) {n : ℕ} {a b : Scope}
    (ha : Counts s n a key) (hb : Counts s n b key) (ht : a.table = b.table)
    (hn : triple (.post n) (.keyed a key) ≠ triple (.post n) (.keyed b key)) : False := by
  obtain ⟨e,ha⟩ := configured_of_counts ha
  obtain ⟨e',hb⟩ := configured_of_counts hb
  have he : (Slot.keyed a key).cell = (Slot.keyed b key).cell := by simp only [Slot.cell, ht]
  exact (h.buckets ha hb hn).1 (by rw [he])

lemma counts_same_name (h : Isolated s) (he : s.rlRedis) {n m : ℕ} {a : Scope}
    (ha : Counts s n a key) (hb : Counts s m a key) :
    triple (.post n) (.keyed a key) = triple (.post m) (.keyed a key) := by
  obtain ⟨e,ha⟩ := configured_of_counts ha
  obtain ⟨e',hb⟩ := configured_of_counts hb
  by_contra hn
  exact (h.buckets ha hb hn).2 (by rw [rdb_post ha, he]) (by rw [rdb_post hb, he]) rfl

lemma separated_of_isolated (h : Isolated s) : Separated s where
  users := by
    intro n c hse hu
    exact counts_same_table h (a := .user) (b := .entryUser) ⟨c,rfl,hse⟩ ⟨c,rfl,hu⟩ rfl
      (by simp [triple])
  keys := by
    intro n c hse hk
    exact counts_same_table h (a := .key) (b := .entryKey) ⟨c,rfl,hse⟩ ⟨c,rfl,hk⟩ rfl
      (by simp [triple])
  roles := by
    intro n c ho
    constructor
    · intro hse
      exact counts_same_table h (a := .role) (b := .user) ho ⟨c,rfl,hse⟩ rfl (by simp [triple])
    · intro hu
      exact counts_same_table h (a := .role) (b := .entryUser) ho ⟨c,rfl,hu⟩ rfl (by simp [triple])
  sharedOwn := by
    intro he n m hn hm
    obtain ⟨e,ha⟩ := configured_of_ownLimit hn
    obtain ⟨e',hb⟩ := configured_of_ownLimit hm
    by_contra hne
    have ht : triple (.entry n) .global ≠ triple (.entry m) .global := by
      simpa [triple, entryOf] using hne
    exact (h.buckets ha hb ht).2 (by rw [rdb_entry hn, he]) (by rw [rdb_entry hm, he])
      rfl
  sharedRoles := by
    intro he n m role hn hm
    have hsa := counts_same_name h he (a := .role) hn hm
    simpa [triple, entryOf] using hsa
  sharedUsers := by
    intro he n m c hn hm
    have hsa := counts_same_name h he (a := .entryUser) ⟨c,rfl,hn⟩ ⟨c,rfl,hm⟩
    simpa [triple, entryOf] using hsa
  sharedKeys := by
    intro he n m c hn hm
    have hsa := counts_same_name h he (a := .entryKey) ⟨c,rfl,hn⟩ ⟨c,rfl,hm⟩
    simpa [triple, entryOf] using hsa

/-- The limits of a service are isolated exactly if no two of them count the
same request under one id of one map, or of one Redis name. -/
theorem scopes_isolated_iff (s : Service) : Isolated s ↔ Separated s :=
  ⟨separated_of_isolated,isolated_of_separated⟩

end

def visit (p : Place) (user : String) (roles : List String) : Event :=
  .pass p "" ⟨⟨fun _ => "",[],fun _ => ""⟩,"",some { userID := user, roles := roles },none,none,[]⟩
    fun _ => { now := 1000*second }

def twoPerUser : Service where
  rateLimit := some { perUser := some ⟨2,1,0⟩ }
  entries := [{ rateLimitPerUser := some ⟨100,1,0⟩ }]

def hundredForAdmins : Service where
  rateLimit := some { perUser := some ⟨2,1,0⟩ }
  entries := [{ perRoleLimits := [("admin",⟨100,1,0⟩)] }]

def twoEntries : Service where
  rateLimit := some { kv := true }
  entries := [{ rateLimit := some ⟨1,1,0⟩ },{ rateLimit := some ⟨1,1,0⟩ }]

/-- The second request of a user is refused, for the first one was counted
twice; a user called like a role sets the limit of all who hold it; the first
request ever to an entry is refused after one to another entry. -/
theorem shared_limits_refuse :
    (twoPerUser.decided (fun _ => none)
        [visit (.post 0) "ana" [],visit (.post 0) "ana" []] ⟨.serverPerUser,none,"ana"⟩).map
      Prod.snd = [true,false] ∧
    (twoPerUser.alone (fun _ => none)
        [visit (.post 0) "ana" [],visit (.post 0) "ana" []] ⟨.serverPerUser,none,"ana"⟩).map
      Prod.snd = [true,true] ∧
    (hundredForAdmins.decided (fun _ => none)
        [visit (.post 0) "admin" [],visit (.post 0) "bob" ["admin"],
          visit (.post 0) "eve" ["admin"]] ⟨.perRole,some 0,"admin"⟩).map
      Prod.snd = [true,false] ∧
    (hundredForAdmins.alone (fun _ => none)
        [visit (.post 0) "admin" [],visit (.post 0) "bob" ["admin"],
          visit (.post 0) "eve" ["admin"]] ⟨.perRole,some 0,"admin"⟩).map
      Prod.snd = [true,true] ∧
    (twoEntries.decided (fun _ => none)
        [visit (.entry 0) "" [],visit (.entry 1) "" []] ⟨.entryLimit,some 1,""⟩).map
      Prod.snd = [false] ∧
    (twoEntries.alone (fun _ => none)
        [visit (.entry 0) "" [],visit (.entry 1) "" []] ⟨.entryLimit,some 1,""⟩).map
      Prod.snd = [true] := by
  decide +kernel

end SdkApi.LimitScopes
