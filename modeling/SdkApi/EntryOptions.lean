import SdkApi.RouterStack
import SdkApi.CrudRoutes

/-!
# The options of an entry and their reach

Deprecation status, input validation, rate limit, retry, timeout, fallback,
file validators and CORS group of an entry are middlewares mounted at the path
of the entry, in front of its routes except for CORS, which `registerEntries`
mounts behind them. A mounted middleware is in front of every route that is
registered later at its path or under it, so it can reach the requests of
other entries. Checks that can only stop the registration are kept where they
ask for a handler; the chain of a route itself is left to the service.
-/

namespace SdkApi.EntryOptions
open PathPatterns RouterStack RouteRegistration CrudRoutes List

inductive Kind where
  | crud
  | rest
  | webhook
  | websocket
  | sse
  | file
  | async
  | grpc
  | graphql
  deriving DecidableEq

def Kind.name : Kind → String
  | .crud => "crud"
  | .rest => "rest"
  | .webhook => "webhook"
  | .websocket => "websocket"
  | .sse => "sse"
  | .file => "file"
  | .async => "async"
  | .grpc => "grpc"
  | .graphql => "graphql"

/-- Loading has written the resource of an async entry into an empty path. -/
structure EntryDef extends CrudRoutes.EntryDef where
  kind : Kind
  method : String := ""
  handler : String := ""
  serviceName : String := ""
  resource : String := ""
  apiVersion : String := ""
  apiStatus : String := ""
  validationModel : String := ""
  rateLimit : Option ℤ := none
  retry : Option ℤ := none
  timeout : String := ""
  fallback : String := ""
  cors : String := ""
  allowedTypes : List String := []
  maxSize : String := ""
  maxFiles : ℤ := 0
  magicBytes : Bool := false
  located : kind = .async → path ≠ ""

structure Handlers extends EntryHandlers where
  ws : List String := []
  sse : List String := []
  async : List String := []

/-- `maxBytes` is `parseMaxSize`; `chain` is authentication and bulkheads. -/
structure Service where
  pre : String
  corsGroups : List String
  handlers : Handlers
  brokers : List String
  parseDuration : String → Option ℤ
  maxBytes : String → ℤ
  chain : EntryDef → List Action

inductive Opt where
  | deprecation
  | validation
  | rateLimit
  | retry
  | timeout
  | fallback
  | file
  | cors
  deriving DecidableEq

abbrev Stack := List (Item (ℕ × Opt) ℕ)

section

/-- `versionRe`: the prefix ends in `/v` and digits. -/
def versioned (p : String) : Bool :=
  let digits := p.toList.reverse.takeWhile Char.isDigit
  digits ≠ [] && ['v','/'].isPrefixOf (p.toList.reverse.drop digits.length)

def buildEntryPrefix (pre : String) (entry : EntryDef) : String :=
  if versioned pre then pre
  else if entry.apiVersion = "" then pre
  else pre ++ "/" ++ entry.apiVersion

variable (svc : Service) (entry : EntryDef)

def entryPath : String := buildEntryPrefix svc.pre entry ++ entry.path

/-- CORS is mounted without the version of the entry. -/
def mountPath (o : Opt) : String :=
  if o = .cors then svc.pre ++ entry.path else entryPath svc entry

end

section

variable (svc : Service) (k : ℕ) (entry : EntryDef)

def mounted : Opt → Bool
  | .deprecation => entry.apiStatus ≠ "" && entry.apiStatus ≠ "current"
  | .validation => entry.validationModel ≠ "" && entry.kind ∈ [Kind.crud,.rest,.webhook]
  | .rateLimit => 0 < entry.rateLimit.getD 0
  | .retry => 0 < entry.retry.getD 0
  | .timeout => entry.timeout ≠ "" && (svc.parseDuration entry.timeout).isSome
  | .fallback => entry.fallback ≠ ""
  | .file => entry.kind = .file && (entry.allowedTypes ≠ [] || entry.maxSize ≠ "") &&
      entry.method ∈ ["POST","PUT","PATCH"]
  | .cors => entry.cors ≠ "" && entry.cors ∈ svc.corsGroups

def appUse (o : Opt) : Stack :=
  if mounted svc entry o then [.mount (k,o) (mountPath svc entry o).toList] else []

def registerDeprecation : Stack := appUse svc k entry .deprecation
def registerValidationMiddleware : Stack := appUse svc k entry .validation
def registerEntryRateLimit : Stack := appUse svc k entry .rateLimit
def registerRetry : Stack := appUse svc k entry .retry
def registerEntryTimeout : Stack := appUse svc k entry .timeout
def registerFallback : Stack := appUse svc k entry .fallback
def registerEntryCORS : Stack := appUse svc k entry .cors

def toItem (r : Route Action) : Item (ℕ × Opt) ℕ := .route k r.methods r.path.toList

def publishWith (h : Action) : Action :=
  wrapEventPublish (hasPublish entry.toEntryDef svc.brokers) h

def streamRoute (names : List String) (what : String) (mws : List Action) : Except String Stack :=
  if entry.handler ∈ names then
    .ok [toItem k (registerWithMws "GET" (entryPath svc entry) mws (.override entry.handler))]
  else .error (what ++ " handler \"" ++ entry.handler ++ "\" not found")

def registerWebSocket : Except String Stack :=
  streamRoute svc k entry svc.handlers.ws "websocket" (svc.chain entry)

def registerSSE : Except String Stack :=
  streamRoute svc k entry svc.handlers.sse "sse" (svc.chain entry++[.middleware "SSE"])

def restHandler (name : String) : Option Action :=
  if name ∈ svc.handlers.rest then some (.override name) else none

def registerRest : Except String Stack :=
  (registerREST (restHandler svc) (some (publishWith svc entry))
    (buildEntryPrefix svc.pre entry) ⟨entry.method,entry.path,entry.handler⟩
    (svc.chain entry)).map fun r => [toItem k r]

def registerFile : Except String Stack :=
  if entry.handler ∈ svc.handlers.rest then
    .ok (appUse svc k entry .file++[toItem k (registerWithMws entry.method (entryPath svc entry)
      (svc.chain entry) (publishWith svc entry (.override entry.handler)))])
  else .error ("file handler \"" ++ entry.handler ++ "\" not found")

def resolveAsyncPath : String :=
  let rsc := if entry.path ≠ "" then entry.path else entry.resource
  if rsc = "" then "" else buildEntryPrefix svc.pre entry ++ rsc

def asyncRoutes (path : String) : Stack :=
  let route := fun (method suffix : String) (h : Action) =>
    toItem k (registerWithMws method (path ++ suffix) (svc.chain entry) h)
  [route "POST" "" (publishWith svc entry (.override "HandleSubmit")),
    route "GET" "/:job_id" (.override "HandleStatus"),
    route "DELETE" "/:job_id" (.override "HandleCancel"),
    route "GET" "/:job_id/status" (.override "HandleStatusSSE"),
    route "GET" "" (.override "HandleList")]

def registerAsync : Except String Stack :=
  let path := resolveAsyncPath svc entry
  if path = "" then .error "async entry requires path or resource"
  else if entry.handler ≠ "" && entry.handler ∉ svc.handlers.async then
    .error ("async handler \"" ++ entry.handler ++ "\" not found")
  else .ok (asyncRoutes svc k entry path)

def registerGRPC : Stack :=
  if entry.serviceName = "" then []
  else [toItem k (appGet (entryPath svc entry) (.override entry.serviceName) [])]

def registerGraphQL : Stack :=
  [toItem k (registerWithMws "POST" (entryPath svc entry) (svc.chain entry) (.override "graphql"))]

def registerRoutes : Except String Stack :=
  match entry.kind with
  | .crud => (registerCRUD entry.toEntryDef svc.handlers.toEntryHandlers
      (buildEntryPrefix svc.pre entry) svc.brokers (svc.chain entry)).map (List.map (toItem k))
  | .rest => registerRest svc k entry
  | .webhook => registerRest svc k entry
  | .websocket => registerWebSocket svc k entry
  | .sse => registerSSE svc k entry
  | .file => registerFile svc k entry
  | .async => registerAsync svc k entry
  | .grpc => .ok (registerGRPC svc k entry)
  | .graphql => .ok (registerGraphQL svc k entry)

def registerOneEntry : Except String Stack := do
  let routes ← registerRoutes svc k entry
  return registerDeprecation svc k entry++registerValidationMiddleware svc k entry++
    registerEntryRateLimit svc k entry++registerRetry svc k entry++
    registerEntryTimeout svc k entry++registerFallback svc k entry++routes

def registerEntries : ℕ → List EntryDef → Except String Stack
  | _, [] => .ok []
  | k, entry::rest =>
    match registerOneEntry svc k entry with
    | .error msg => .error ("entry[" ++ toString k ++ "] " ++ entry.kind.name ++ " " ++
        entry.path ++ ": " ++ msg)
    | .ok own => do
      let others ← registerEntries (k+1) rest
      return own++registerEntryCORS svc k entry++others

end

section

variable {svc : Service} {k : ℕ} {entry : EntryDef} {r : Request}

def OwnRoute (svc : Service) (k : ℕ) (entry : EntryDef) (i : Item (ℕ × Opt) ℕ) : Prop :=
  ∃ methods suffix, i = .route k methods ((entryPath svc entry).toList++suffix) ∧
    (suffix = [] ∨ suffix.head? = some '/')

lemma registerWithMws_path {method path : String} {mws : List Action} {h : Action} :
    (registerWithMws method path mws h).path = path := by
  by_cases hm : method ∈ verbs
  · rw [registerWithMws_verb hm]
  · rw [registerWithMws, registerRoute_other method path h mws hm]
    rfl

lemma ownRoute_of_path {route : Route Action} {suffix : String}
    (hp : route.path = entryPath svc entry ++ suffix)
    (hs : suffix.toList = [] ∨ suffix.toList.head? = some '/') :
    OwnRoute svc k entry (toItem k route) :=
  ⟨route.methods,suffix.toList,by rw [toItem, hp, String.toList_append],hs⟩

variable {route : Route Action} {wrap : Action → Action} {mws : List Action} {items : Stack}
  {i : Item (ℕ × Opt) ℕ}

lemma ownRoute_at (hp : route.path = entryPath svc entry) : OwnRoute svc k entry (toItem k route) :=
  @ownRoute_of_path svc k entry route "" (by rw [hp, String.append_empty]) (.inl rfl)

lemma slot_path {entry : CrudRoutes.EntryDef} {op : CrudEntry.Operation} {method path : String}
    (h : route ∈ slot entry op method path wrap mws) : route.path = path := by
  unfold slot at h
  split_ifs at h
  · cases h
  · rw [mem_singleton.mp h, registerWithMws_path]

lemma crudRoutes_path {entry : CrudRoutes.EntryDef} {base : String}
    (h : route ∈ crudRoutes entry base wrap mws) :
    route.path = base ∨ route.path = base ++ buildIDParam base := by
  simp only [crudRoutes, mem_append] at h
  rcases h with (((h | h) | h) | h) | h
  · exact .inl (slot_path h)
  · exact .inr (slot_path h)
  · exact .inl (slot_path h)
  · exact .inr (slot_path h)
  · exact .inr (slot_path h)

lemma buildIDParam_suffix (base : String) :
    (buildIDParam base).toList = [] ∨ (buildIDParam base).toList.head? = some '/' := by
  unfold buildIDParam
  split_ifs
  · exact .inl rfl
  · exact .inr (by decide)

lemma ownRoute_crud (h : route ∈ crudRoutes entry.toEntryDef (entryPath svc entry) wrap mws) :
    OwnRoute svc k entry (toItem k route) := by
  rcases crudRoutes_path h with hp | hp
  · exact ownRoute_at hp
  · exact ownRoute_of_path hp (buildIDParam_suffix _)

lemma resolveAsyncPath_located (h : entry.path ≠ "") :
    resolveAsyncPath svc entry = entryPath svc entry := by
  simp [resolveAsyncPath, h, entryPath]

lemma appUse_file_of_kind (h : entry.kind ≠ .file) : appUse svc k entry .file = [] := by
  simp [appUse, mounted, h]

/-- Only the routes of a file entry have one more middleware in front. -/
def Routed (svc : Service) (k : ℕ) (entry : EntryDef) (items : Stack) : Prop :=
  ∃ rs, items = appUse svc k entry .file++rs ∧ ∀ i ∈ rs, OwnRoute svc k entry i

section

variable (h : entry.kind ≠ .file)
include h

lemma routed_of_kind (hi : ∀ i ∈ items, OwnRoute svc k entry i) : Routed svc k entry items :=
  ⟨items,by rw [appUse_file_of_kind h, nil_append],hi⟩

lemma routed_single {route : Route Action}
    (hp : route.path = entryPath svc entry) : Routed svc k entry [toItem k route] :=
  routed_of_kind h fun i hi => by
    rw [mem_singleton.mp hi]
    exact ownRoute_at hp

lemma routed_registerRest
    (hok : registerRest svc k entry = .ok items) : Routed svc k entry items := by
  unfold registerRest registerREST at hok
  by_cases hr : entry.handler ∈ svc.handlers.rest
  · simp only [restHandler, hr, if_true] at hok
    cases hok
    exact routed_single h registerWithMws_path
  · simp only [restHandler, hr, if_false] at hok
    cases hok

lemma routed_streamRoute {names : List String} {what : String} {mws : List Action}
    (hok : streamRoute svc k entry names what mws = .ok items) : Routed svc k entry items := by
  unfold streamRoute at hok
  by_cases hr : entry.handler ∈ names
  · rw [if_pos hr] at hok
    cases hok
    exact routed_single h registerWithMws_path
  · rw [if_neg hr] at hok
    cases hok

end

lemma routed_registerFile (hok : registerFile svc k entry = .ok items) :
    Routed svc k entry items := by
  unfold registerFile at hok
  by_cases hr : entry.handler ∈ svc.handlers.rest
  · rw [if_pos hr] at hok
    cases hok
    refine ⟨_,rfl,fun i hi => ?_⟩
    rw [mem_singleton.mp hi]
    exact ownRoute_at registerWithMws_path
  · rw [if_neg hr] at hok
    cases hok

lemma registerAsync_ok (hok : registerAsync svc k entry = .ok items) :
    items = asyncRoutes svc k entry (resolveAsyncPath svc entry) := by
  unfold registerAsync at hok
  by_cases hp : resolveAsyncPath svc entry = ""
  · simp [hp] at hok
  · by_cases hh : entry.handler ≠ "" && entry.handler ∉ svc.handlers.async
    · simp only [hp, hh, if_false, if_true] at hok
      cases hok
    · simp only [hp, hh, if_false] at hok
      cases hok
      rfl

lemma routed_registerAsync (h : entry.kind = .async)
    (hok : registerAsync svc k entry = .ok items) : Routed svc k entry items := by
  have ht := registerAsync_ok hok
  rw [resolveAsyncPath_located (entry.located h)] at ht
  subst ht
  refine routed_of_kind (by simp [h]) fun i hi => ?_
  simp only [asyncRoutes, mem_cons, not_mem_nil, or_false] at hi
  rcases hi with rfl | rfl | rfl | rfl | rfl <;>
    exact ownRoute_of_path registerWithMws_path (by decide)

lemma registerRoutes_ok (hok : registerRoutes svc k entry = .ok items) :
    Routed svc k entry items := by
  unfold registerRoutes at hok
  split at hok
  · rename_i h
    cases hc : registerCRUD entry.toEntryDef svc.handlers.toEntryHandlers
        (buildEntryPrefix svc.pre entry) svc.brokers (svc.chain entry) with
    | error msg =>
      rw [hc] at hok
      cases hok
    | ok routes =>
      rw [hc] at hok
      cases hok
      refine routed_of_kind (by simp [h]) fun i hi => ?_
      obtain ⟨route,ho,rfl⟩ := mem_map.mp hi
      rw [registerCRUD_ok hc] at ho
      exact ownRoute_crud ho
  · rename_i h
    exact routed_registerRest (by simp [h]) hok
  · rename_i h
    exact routed_registerRest (by simp [h]) hok
  · rename_i h
    exact routed_streamRoute (by simp [h]) hok
  · rename_i h
    exact routed_streamRoute (by simp [h]) hok
  · exact routed_registerFile hok
  · rename_i h
    exact routed_registerAsync h hok
  · rename_i h
    cases hok
    refine routed_of_kind (by simp [h]) fun i hi => ?_
    unfold registerGRPC at hi
    split_ifs at hi
    · cases hi
    · rw [mem_singleton.mp hi]
      exact ownRoute_at rfl
  · rename_i h
    cases hok
    exact routed_single (by simp [h]) registerWithMws_path

def frontMounts (svc : Service) (k : ℕ) (entry : EntryDef) : Stack :=
  registerDeprecation svc k entry++registerValidationMiddleware svc k entry++
    registerEntryRateLimit svc k entry++registerRetry svc k entry++
    registerEntryTimeout svc k entry++registerFallback svc k entry++appUse svc k entry .file

lemma registerOneEntry_ok {own : Stack} (h : registerOneEntry svc k entry = .ok own) :
    ∃ rs, own = frontMounts svc k entry++rs ∧ ∀ i ∈ rs, OwnRoute svc k entry i := by
  obtain ⟨items,hi,h⟩ := bind_ok h
  cases h
  obtain ⟨rs,rfl,hrs⟩ := registerRoutes_ok hi
  exact ⟨rs,by simp [frontMounts],hrs⟩

lemma mem_passed_appUse {j : ℕ} {o o' : Opt} :
    (j,o') ∈ passed r (appUse svc k entry o) ↔
      j = k ∧ o' = o ∧ mounted svc entry o ∧ matchMount (mountPath svc entry o).toList r.path := by
  unfold appUse
  by_cases hm : mounted svc entry o
  · by_cases hc : matchMount (mountPath svc entry o).toList r.path
    · simp [hm, hc, passed, Item.passes]
    · simp [hm, hc, passed, Item.passes]
  · simp [hm, passed]

lemma mem_passed_front {j : ℕ} {o : Opt} :
    (j,o) ∈ passed r (frontMounts svc k entry) ↔
      o ≠ .cors ∧ j = k ∧ mounted svc entry o ∧
        matchMount (mountPath svc entry o).toList r.path := by
  simp only [frontMounts, registerDeprecation, registerValidationMiddleware,
    registerEntryRateLimit, registerRetry, registerEntryTimeout, registerFallback, passed_append,
    mem_append, mem_passed_appUse]
  cases o <;> simp

lemma appUse_answers {o : Opt} : ∀ i ∈ appUse svc k entry o, i.answers r = none := by
  unfold appUse
  split_ifs
  · intro i hi
    rw [mem_singleton.mp hi]
    rfl
  · nofun

lemma frontMounts_answers : ∀ i ∈ frontMounts svc k entry, i.answers r = none := by
  simp only [frontMounts, registerDeprecation, registerValidationMiddleware,
    registerEntryRateLimit, registerRetry, registerEntryTimeout, registerFallback,
    mem_append]
  rintro i ((((((h | h) | h) | h) | h) | h) | h) <;> exact appUse_answers i h

lemma ownRoute_passes (h : OwnRoute svc k entry i) : i.passes r = [] := by
  obtain ⟨methods,suffix,rfl,-⟩ := h
  rfl

lemma ownRoute_answers (h : OwnRoute svc k entry i) {b : ℕ}
    (ha : i.answers r = some b) : b = k ∧ matchMount (entryPath svc entry).toList r.path := by
  obtain ⟨methods,suffix,rfl,hs⟩ := h
  rw [Item.answers] at ha
  split_ifs at ha with hm
  cases ha
  exact ⟨rfl,matchMount_of_matchRoute hs hm.2⟩

end

section

variable {svc : Service} {k : ℕ} {entry : EntryDef} {r : Request}
variable {stack : Stack} {entries : List EntryDef}

lemma registerEntries_cons {rest : List EntryDef}
    (h : registerEntries svc k (entry::rest) = .ok stack) :
    ∃ rs others, (∀ i ∈ rs, OwnRoute svc k entry i) ∧
      registerEntries svc (k+1) rest = .ok others ∧
      stack = frontMounts svc k entry++rs++registerEntryCORS svc k entry++others := by
  rw [registerEntries] at h
  split at h
  · cases h
  · rename_i own hn
    obtain ⟨others,ho,h⟩ := bind_ok h
    cases h
    obtain ⟨rs,rfl,hrs⟩ := registerOneEntry_ok hn
    exact ⟨rs,others,hrs,ho,rfl⟩

lemma mem_passed_block {rs : Stack} (hrs : ∀ i ∈ rs, OwnRoute svc k entry i) {j : ℕ} {o : Opt} :
    (j,o) ∈ passed r (frontMounts svc k entry++rs++registerEntryCORS svc k entry) ↔
      j = k ∧ mounted svc entry o ∧ matchMount (mountPath svc entry o).toList r.path := by
  rw [passed_append, passed_append, passed_of_routes fun i hi => ownRoute_passes (hrs i hi),
    append_nil, mem_append, mem_passed_front, registerEntryCORS, mem_passed_appUse]
  cases o <;> simp

inductive Blocks (svc : Service) : ℕ → List EntryDef → Stack → Prop
  | nil {k : ℕ} : Blocks svc k [] []
  | cons {k : ℕ} {entry : EntryDef} {rest : List EntryDef} {rs others : Stack}
      (own : ∀ i ∈ rs, OwnRoute svc k entry i) (tail : Blocks svc (k+1) rest others) :
      Blocks svc k (entry::rest)
        (frontMounts svc k entry++rs++registerEntryCORS svc k entry++others)

lemma blocks_of_registered
    (h : registerEntries svc k entries = .ok stack) : Blocks svc k entries stack := by
  induction entries generalizing k stack with
  | nil =>
    cases h
    exact .nil
  | cons entry rest ih =>
    obtain ⟨rs,others,hrs,ho,rfl⟩ := registerEntries_cons h
    exact .cons hrs (ih ho)

lemma appUse_added (o : Opt) : (appUse svc k entry o).map Item.added = appUse svc k entry o := by
  unfold appUse
  split_ifs <;> rfl

lemma ownRoute_added {i : Item (ℕ × Opt) ℕ} (h : OwnRoute svc k entry i) :
    OwnRoute svc k entry i.added := by
  obtain ⟨methods,suffix,rfl,hs⟩ := h
  exact ⟨_,suffix,rfl,hs⟩

lemma Blocks.added (h : Blocks svc k entries stack) :
    Blocks svc k entries (stack.map Item.added) := by
  induction h with
  | nil => exact .nil
  | cons own tail ih =>
    simp only [frontMounts, registerDeprecation, registerValidationMiddleware,
      registerEntryRateLimit, registerRetry, registerEntryTimeout, registerFallback,
      registerEntryCORS, map_append, appUse_added]
    refine .cons (fun i hi => ?_) ih
    obtain ⟨j,hj,rfl⟩ := mem_map.mp hi
    exact ownRoute_added (own j hj)

lemma Blocks.mem_ran {out : List (ℕ × Opt) × ℕ}
    (h : Blocks svc k entries stack) (hs : serve r stack = some out) :
    k ≤ out.2 ∧ ∀ j o, (j,o) ∈ out.1 ↔ ∃ a, (a,j) ∈ entries.zipIdx k ∧ mounted svc a o ∧
      (j < out.2 ∧ matchMount (mountPath svc a o).toList r.path ∨ j = out.2 ∧ o ≠ .cors) := by
  induction h generalizing out with
  | nil => cases hs
  | @cons k entry rest rs others hrs hot ih =>
    have ht : ∀ {a : EntryDef} {j : ℕ}, (a,j) ∈ rest.zipIdx (k+1) → k < j :=
      fun hme => le_snd_of_mem_zipIdx hme
    cases hn : serve r (frontMounts svc k entry++rs++registerEntryCORS svc k entry) with
    | some own =>
      -- The request is served by this entry.
      rw [serve_append_some hn] at hs
      cases hs
      obtain ⟨ha,i,hi,hans⟩ := serve_block frontMounts_answers
        (fun i hi => ownRoute_passes (hrs i hi)) appUse_answers hn
      obtain ⟨hb,hco⟩ := ownRoute_answers (hrs i hi) hans
      refine ⟨hb.ge,fun j o => ?_⟩
      rw [ha, hb, mem_passed_front, zipIdx_cons]
      constructor
      · rintro ⟨ho,rfl,hm,-⟩
        exact ⟨entry,.head _,hm,.inr ⟨rfl,ho⟩⟩
      · rintro ⟨a,hme,hm,hlt | ⟨rfl,ho⟩⟩
        · rcases mem_cons.mp hme with hq | hme
          · cases hq
            exact absurd hlt.1 (lt_irrefl _)
          · exact absurd (ht hme) (by omega)
        · rcases mem_cons.mp hme with hq | hme
          · cases hq
            exact ⟨ho,rfl,hm,by rw [mountPath, if_neg ho]; exact hco⟩
          · exact absurd (ht hme) (lt_irrefl _)
    | none =>
      rw [serve_append_none hn, Option.map_eq_some_iff] at hs
      obtain ⟨below,hl,rfl⟩ := hs
      obtain ⟨hle,ha⟩ := ih hl
      refine ⟨by simpa using Nat.le_of_succ_le hle,fun j o => ?_⟩
      rw [mem_append, mem_passed_block hrs, ha, zipIdx_cons]
      constructor
      · rintro (⟨rfl,hm,hc⟩ | ⟨a,hme,he⟩)
        · exact ⟨entry,.head _,hm,.inl ⟨hle,hc⟩⟩
        · exact ⟨a,.tail _ hme,he⟩
      · rintro ⟨a,hme,hm,he⟩
        rcases mem_cons.mp hme with hq | hme
        · cases hq
          rcases he with hc | hc
          · exact .inl ⟨rfl,hm,hc.2⟩
          · exact absurd hc.1 (by simpa using (Nat.ne_of_lt hle))
        · exact .inr ⟨a,hme,hm,he⟩

end

def declares (entry : EntryDef) : Opt → Bool
  | .deprecation => entry.apiStatus ≠ "" && entry.apiStatus ≠ "current"
  | .validation => entry.validationModel ≠ ""
  | .rateLimit => 0 < entry.rateLimit.getD 0
  | .retry => 0 < entry.retry.getD 0
  | .timeout => entry.timeout ≠ ""
  | .fallback => entry.fallback ≠ ""
  | .file => entry.allowedTypes ≠ [] || entry.maxSize ≠ "" || 0 < entry.maxFiles || entry.magicBytes
  | .cors => entry.cors ≠ ""

def acts (svc : Service) (entry : EntryDef) (method : String) : Opt → Bool
  | .deprecation => entry.apiStatus ∈ ["deprecated","removed"]
  | .retry => method ∈ ["GET","HEAD","PUT","DELETE","OPTIONS"]
  | .fallback => entry.fallback ∈ ["degraded","stale"]
  | .file => entry.allowedTypes ≠ [] ||
      (entry.maxSize ≠ "" && 0 < svc.maxBytes entry.maxSize) || 0 < entry.maxFiles ||
      entry.magicBytes
  | _ => true

/-- The request meets all the options of its own entry and no others. -/
structure Isolated (svc : Service) (entries : List EntryDef) (r : Request)
    (out : List (ℕ × Opt) × ℕ) : Prop where
  foreign : ∀ j o, (j,o) ∈ out.1 → j ≠ out.2 → ∀ a, entries[j]? = some a →
    acts svc a r.method o = false
  own : ∀ entry, entries[out.2]? = some entry → ∀ o, declares entry o → (out.2,o) ∈ out.1

/-- No earlier entry has an option in force at the path of the request. -/
structure Undisturbed (svc : Service) (entries : List EntryDef) (r : Request) (b : ℕ) :
    Prop where
  foreign : ∀ j a, j < b → entries[j]? = some a → ∀ o, mounted svc a o →
    acts svc a r.method o → matchMount (mountPath svc a o).toList r.path = false
  own : ∀ entry, entries[b]? = some entry → ∀ o, declares entry o → o ≠ .cors ∧ mounted svc entry o

theorem isolated_iff (svc : Service) (entries : List EntryDef) (stack : Stack)
    (h : registerEntries svc 0 entries = .ok stack) (r : Request) (out : List (ℕ × Opt) × ℕ)
    (hs : serve r stack = some out) :
    Isolated svc entries r out ↔ Undisturbed svc entries r out.2 := by
  have hn := ((blocks_of_registered h).mem_ran hs).2
  simp only [mk_mem_zipIdx_iff_getElem?] at hn
  constructor
  · intro hi
    constructor
    · intro j a hl ha o hm ht
      by_contra hc
      have hme : (j,o) ∈ out.1 := (hn j o).mpr ⟨a,ha,hm,.inl ⟨hl,by simpa using hc⟩⟩
      have := hi.foreign j o hme hl.ne a ha
      simp [ht] at this
    · intro entry he o hd
      obtain ⟨a,ha,hm,hl | ⟨-,ho⟩⟩ := (hn _ o).mp (hi.own entry he o hd)
      · exact absurd hl.1 (lt_irrefl _)
      · rw [he] at ha
        cases ha
        exact ⟨ho,hm⟩
  · intro hu
    constructor
    · intro j o hme hne a ha
      obtain ⟨a',ha',hm,hl | hq⟩ := (hn j o).mp hme
      · rw [ha] at ha'
        cases ha'
        by_contra ht
        have := hu.foreign j a hl.1 ha o hm (by simpa using ht)
        simp [hl.2] at this
      · exact absurd hq.1 hne
    · intro entry he o hd
      obtain ⟨ho,hm⟩ := hu.own entry he o hd
      exact (hn _ o).mpr ⟨entry,he,hm,.inr ⟨rfl,ho⟩⟩

def restEntry (method path : String) : EntryDef where
  model := ""
  path := path
  crud := { tenantField := "" }
  kind := .rest
  method := method
  handler := "h"
  located := nofun

def plainService : Service where
  pre := "/api/v1"
  corsGroups := ["web"]
  handlers := { crud := [], rest := ["h"] }
  brokers := []
  parseDuration := fun _ => none
  maxBytes := fun _ => 0
  chain := fun _ => []

def separateEntries : List EntryDef :=
  [{ restEntry "POST" "/orders" with rateLimit := some 5 },restEntry "GET" "/users"]

lemma separate_undisturbed :
    Undisturbed plainService separateEntries ⟨"GET","/api/v1/users".toList⟩ 1 := by
  constructor
  · intro j a hj ha o _ _
    obtain rfl : j = 0 := by omega
    cases ha
    cases o <;> decide
  · intro entry he o hd
    cases he
    cases o <;> exact absurd hd (by decide)

theorem separate_isolated :
    ∃ stack, registerEntries plainService 0 separateEntries = .ok stack ∧
      serve ⟨"GET","/api/v1/users".toList⟩ stack = some ([],1) ∧
      Isolated plainService separateEntries ⟨"GET","/api/v1/users".toList⟩ ([],1) :=
  ⟨_,rfl,by decide,(isolated_iff plainService separateEntries _ rfl _ ([],1) (by decide)).mpr
    separate_undisturbed⟩

def sharedEntries : List EntryDef :=
  [{ restEntry "POST" "/orders" with rateLimit := some 5 },
    { restEntry "GET" "/orders/:id" with cors := "web" }]

/-- Reading an order is charged to the limit on writing orders, and the CORS
group of the entry is mounted behind its route. -/
theorem shared_not_isolated :
    ∃ stack, registerEntries plainService 0 sharedEntries = .ok stack ∧
      serve ⟨"GET","/api/v1/orders/7".toList⟩ stack = some ([(0,.rateLimit)],1) ∧
      ¬ Isolated plainService sharedEntries ⟨"GET","/api/v1/orders/7".toList⟩ ([(0,.rateLimit)],1) ∧
      (1,Opt.cors) ∉ [((0 : ℕ),Opt.rateLimit)] := by
  refine ⟨_,rfl,by decide,fun h => ?_,by decide⟩
  have ha := h.foreign 0 .rateLimit (.head _) (by decide) _ rfl
  cases ha

end SdkApi.EntryOptions
