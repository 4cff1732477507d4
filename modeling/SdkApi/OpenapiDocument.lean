import SdkApi.OpenapiSchemas
import SdkApi.EntryOptions
import SdkApi.ConfigReferences

/-!
# The OpenAPI document of a service

`BuildOpenAPI` goes through the entries that are not hidden, writes their
operations into the path items of the document and the schemas of their models
into its components. Two more passes put the security requirements of entries
on the operations and take excluded ones out.

The title, the servers and the security schemes of the document are left out.
-/

namespace SdkApi.OpenapiDocument
open GoStrings BoundedCalls OpenapiSchemas List Option Function
open EntryOptions (Kind)
open Tables (GoMap)
open ConfigReferences (plural)

structure EntryDef extends toOptions : EntryOptions.EntryDef where
  hidden : Bool := false
  table : String := ""
  authModes : List String := []
  summary : String := ""
  description : String := ""
  tags : List String := []
  requestModel : String := ""
  responseModel : String := ""
  errorModel : String := ""
  responses : GoMap String := []

structure OpenAPIConf where
  excludePaths : List String := []
  excludeTags : List String := []

structure ServiceConfig where
  apiPrefix : String
  entries : List EntryDef
  openapi : Option OpenAPIConf := none

inductive Verb where
  | get
  | post
  | put
  | patch
  | delete
  deriving DecidableEq

def Verb.name : Verb → String
  | .get => "GET"
  | .post => "POST"
  | .put => "PUT"
  | .patch => "PATCH"
  | .delete => "DELETE"

/-- The cases of the switches over `entry.Method`. -/
def methodVerb (method : String) : Option Verb :=
  [Verb.get,.post,.put,.patch,.delete].find? fun v => v.name = method

structure Parameter where
  name : String
  location : String
  type : String

structure Response where
  description : String
  content : Option Schema := none

/-- Without a security requirement of its own, an operation has that of the document. -/
structure Operation where
  summary : String
  operationID : String
  description : String := ""
  tags : List String := []
  parameters : List Parameter := []
  requestBody : Option Schema := none
  responses : GoMap Response
  security : Option (List String) := none

abbrev PathItem := Verb → Option Operation

abbrev Paths := String → Option PathItem

structure Doc where
  paths : Paths := fun _ => none
  schemas : Components := []
  security : List String := []

def Operation.schemas (op : Operation) : List Schema :=
  op.requestBody.toList++op.responses.filterMap fun r => r.2.content

def Paths.operation (paths : Paths) (path : String) (verb : Verb) : Option Operation :=
  (paths path).bind fun item => item verb

section

/-- A path item alone, an operation in it, if absent, or a new item. -/
inductive Write where
  | touch (path : String)
  | put (path : String) (verb : Verb) (op : Operation)
  | offer (path : String) (verb : Verb) (op : Operation)
  | replace (path : String) (verb : Verb) (op : Operation)

def pathItem (paths : Paths) (path : String) : PathItem := (paths path).getD fun _ => none

def Paths.write (paths : Paths) : Write → Paths
  | .touch path => Function.update paths path (some (pathItem paths path))
  | .put path verb op =>
    Function.update paths path (some (Function.update (pathItem paths path) verb (some op)))
  | .offer path verb op =>
    let item := pathItem paths path
    Function.update paths path
      (some (if (item verb).isNone then Function.update item verb (some op) else item))
  | .replace path verb op =>
    Function.update paths path (some (Function.update (fun _ => none) verb (some op)))

variable (paths : Paths) (path p : String) (verb v : Verb) (op : Operation)

lemma operation_eq_pathItem : paths.operation path verb = pathItem paths path verb := by
  unfold Paths.operation pathItem
  cases paths path <;> rfl

lemma operation_touch :
    (paths.write (.touch p)).operation path verb = paths.operation path verb := by
  by_cases ha : path = p
  · subst ha
    rw [operation_eq_pathItem paths]
    simp [Paths.operation, Paths.write]
  · simp [Paths.operation, Paths.write, ha]

lemma operation_put :
    (paths.write (.put p v op)).operation path verb =
      if path = p ∧ verb = v then some op else paths.operation path verb := by
  by_cases ha : path = p
  · subst ha
    rw [operation_eq_pathItem paths]
    simp [Paths.operation, Paths.write, update_apply]
  · simp [Paths.operation, Paths.write, ha]

lemma operation_offer :
    (paths.write (.offer p v op)).operation path verb =
      if path = p ∧ verb = v then some ((paths.operation path verb).getD op)
      else paths.operation path verb := by
  by_cases ha : path = p
  · subst ha
    rw [operation_eq_pathItem paths]
    simp only [Paths.operation, Paths.write, update_self, bind_some, true_and]
    by_cases he : verb = v
    · subst he
      cases ho : pathItem paths path verb <;> simp [ho]
    · split_ifs <;> simp [he]
  · simp [Paths.operation, Paths.write, ha]

lemma operation_replace :
    (paths.write (.replace p v op)).operation path verb =
      if path = p then if verb = v then some op else none else paths.operation path verb := by
  by_cases ha : path = p
  · subst ha
    simp [Paths.operation, Paths.write, update_apply]
  · simp [Paths.operation, Paths.write, ha]

-- `http.StatusText`
variable (statusText : ℤ → String)

variable {τ : Type} (P : Program τ) (go : τ × Components → Option (Schema × Components))

variable (pre : String) (entry : EntryDef)

/-- A byte outside of ASCII has no upper case and becomes the replacement character. -/
def upperFirst : List Char → List Char
  | [] => []
  | c::cs => (if c.toNat < 128 then [c.toUpper] else ['\xef','\xbf','\xbd'])++cs

def pascal (s : String) : String := String.ofList ((s.toList.splitOn '-').flatMap upperFirst)

def responses200 (schema : Schema) : GoMap Response := [("200",⟨"OK",some schema⟩)]

def responses201 (schema : Schema) : GoMap Response := [("201",⟨"Created",some schema⟩)]

def okResp : GoMap Response := [("200",⟨"OK",none⟩)]

def resourceOf : String := if entry.resource = "" then plural entry.table else entry.resource

def basePath : String := pre ++ "/" ++ resourceOf entry

/-- `strings.Contains(entry.Path, ":id")` -/
def hasID : Bool := decide ([':','i','d'] <:+: entry.path.toList)

def idPath : String := if hasID entry then pre ++ entry.path else basePath pre entry ++ "/:id"

/-- The schema is built twice; in between it is entered for the model. -/
def crudSchema (c : Components) : Option (Schema × Components) :=
  match P.models entry.model with
  | none => some (.inline "" "",c)
  | some fields => (buildSchema go fields c).bind fun r =>
      buildSchema go fields (Tables.set r.2 entry.model r.1)

def crudWrites (schema : Schema) : List Write :=
  let resource := resourceOf entry
  let id : Parameter := ⟨"id","path","string"⟩
  [.offer (basePath pre entry) .get
      { summary := "List " ++ resource
        operationID := "list" ++ pascal resource
        parameters := [⟨"page","query","integer"⟩,⟨"size","query","integer"⟩,
          ⟨"cursor","query","string"⟩,⟨"sort","query","string"⟩]
        responses := responses200 schema },
    .offer (basePath pre entry) .post
      { summary := "Create " ++ resource
        operationID := "create" ++ pascal resource
        requestBody := some schema
        responses := responses201 schema },
    .offer (idPath pre entry) .get
      { summary := "Get " ++ resource ++ " by ID"
        operationID := "get" ++ pascal resource
        parameters := [id]
        responses := responses200 schema },
    .offer (idPath pre entry) .patch
      { summary := "Update " ++ resource
        operationID := "update" ++ pascal resource
        parameters := [id]
        responses := okResp },
    .offer (idPath pre entry) .delete
      { summary := "Delete " ++ resource
        operationID := "delete" ++ pascal resource
        parameters := [id]
        responses := [("204",⟨"Deleted",none⟩)] }]

def addCRUDPaths (c : Components) : Option (List Write × Components) :=
  (crudSchema P go entry c).map fun r => (crudWrites pre entry r.1,r.2)

def modelRef (name : String) (c : Components) : Option (Option Schema × Components) :=
  if name = "" then some (none,c) else registerModelSchema P go name c

def codes : List String := (entry.responses.map Prod.fst).insertionSort (· ≤ ·)

def describe (code : String) (n : ℤ) : String :=
  let desc := (entry.responses.lookup code).getD ""
  if desc ≠ "" then desc else statusText n

/-- The first declared code of success, or the default of the method. -/
def success : ℤ × String :=
  let declared := (codes entry).findSome? fun code =>
    (atoi code.toList).bind fun n =>
      if 200 ≤ n ∧ n < 300 then some (n,describe statusText entry code n) else none
  declared.getD (if entry.method = "POST" then (201,"Created") else (200,"OK"))

/-- All places of the response of success share one description, `none` here. -/
def addResponse (errSchema : Option Schema) (state : String × GoMap (Option Response))
    (code : String) : String × GoMap (Option Response) :=
  match atoi code.toList with
  | none => state
  | some n =>
    let desc := describe statusText entry code n
    if n = (success statusText entry).1 then
      (if desc ≠ "" then desc else state.1,Tables.set state.2 code none)
    else (state.1,Tables.set state.2 code (some ⟨desc,if 400 ≤ n then errSchema else none⟩))

def allResponses (successSchema errSchema : Option Schema) : GoMap Response :=
  let ok := success statusText entry
  let state := (codes entry).foldl (addResponse statusText entry errSchema)
    (ok.2,[(toString ok.1,none)])
  state.2.map fun r => (r.1,r.2.getD ⟨state.1,successSchema⟩)

def operationResponses (successSchema : Option Schema) (c : Components) :
    Option (GoMap Response × Components) :=
  (modelRef P go entry.errorModel c).map fun err =>
    (allResponses statusText entry successSchema err.1,err.2)

def restTags : List String := if entry.tags = [] then [entry.kind.name] else entry.tags

def restOperation (reqSchema : Option Schema) (responses : GoMap Response) : Operation :=
  { summary := if entry.summary = "" then entry.handler else entry.summary
    operationID := entry.handler
    description := entry.description
    tags := restTags entry
    requestBody := if entry.method ∉ ["","GET","DELETE"] then reqSchema else none
    responses := responses }

def restWrites (op : Operation) : List Write :=
  match methodVerb entry.method with
  | some verb => [.put (pre ++ entry.path) verb op]
  | none => [.touch (pre ++ entry.path)]

def addRestPath (c : Components) : Option (List Write × Components) :=
  (modelRef P go entry.requestModel c).bind fun req =>
    (modelRef P go entry.responseModel req.2).bind fun resp =>
      (operationResponses statusText P go entry resp.1 resp.2).map fun responses =>
        (restWrites pre entry (restOperation entry req.1 responses.1),responses.2)

def addWSPath : List Write :=
  [.put (pre ++ entry.path) .get
    { summary := "WebSocket: " ++ entry.handler
      operationID := entry.handler
      responses := [("101",⟨"Switching Protocols",none⟩)] }]

def addSSEPath : List Write :=
  [.put (pre ++ entry.path) .get
    { summary := "SSE stream: " ++ entry.handler
      operationID := entry.handler
      responses := [("200",⟨"SSE stream",some (.inline "string" "")⟩)] }]

def addFilePath : List Write :=
  match methodVerb entry.method with
  | some verb => [.put (pre ++ entry.path) verb
      { summary := "File: " ++ entry.handler
        operationID := entry.handler
        responses := okResp }]
  | none => []

def addAsyncPaths : List Write :=
  let base := pre ++ entry.path
  let jobPath := base ++ "/:job_id"
  let jobID : Parameter := ⟨"job_id","path","string"⟩
  [.offer base .post
      { summary := "Submit " ++ entry.handler ++ " job"
        operationID := "submit" ++ pascal entry.handler
        description := entry.description
        tags := ["async"]
        responses := [("202",⟨"Job accepted",none⟩)] },
    .offer base .get
      { summary := "List " ++ entry.handler ++ " jobs"
        operationID := "list" ++ pascal entry.handler ++ "Jobs"
        tags := ["async"]
        responses := okResp },
    .offer jobPath .get
      { summary := "Get " ++ entry.handler ++ " job status"
        operationID := "get" ++ pascal entry.handler ++ "Job"
        tags := ["async"]
        parameters := [jobID]
        responses := okResp },
    .offer jobPath .delete
      { summary := "Cancel " ++ entry.handler ++ " job"
        operationID := "cancel" ++ pascal entry.handler ++ "Job"
        tags := ["async"]
        parameters := [jobID]
        responses := okResp },
    .offer (jobPath ++ "/status") .get
      { summary := "Stream " ++ entry.handler ++ " job status (SSE)"
        operationID := "stream" ++ pascal entry.handler ++ "JobStatus"
        tags := ["async","sse"]
        parameters := [jobID]
        responses := okResp }]

def querySchema : Schema :=
  .object [("query",.inline "string" ""),("variables",.inline "object" "")]

def addGraphQLPath : List Write :=
  [.replace (pre ++ entry.path) .post
    { summary := if entry.summary = "" then "GraphQL: " ++ entry.handler else entry.summary
      operationID := entry.handler
      description := entry.description
      tags := ["graphql"]
      requestBody := some querySchema
      responses := okResp }]

def entryWrites (c : Components) : Option (List Write × Components) :=
  match entry.kind with
  | .crud => addCRUDPaths P go pre entry c
  | .rest => addRestPath statusText P go pre entry c
  | .webhook => addRestPath statusText P go pre entry c
  | .websocket => some (addWSPath pre entry,c)
  | .sse => some (addSSEPath pre entry,c)
  | .file => some (addFilePath pre entry,c)
  | .async => some (addAsyncPaths pre entry,c)
  | .graphql => some (addGraphQLPath pre entry,c)
  | .grpc => some ([],c)

def addEntryPaths (doc : Doc) : Option Doc :=
  (entryWrites statusText P go pre entry doc.schemas).map fun r =>
    { doc with paths := r.1.foldl Paths.write doc.paths, schemas := r.2 }

def addEntries : List EntryDef → Doc → Option Doc
  | [], doc => some doc
  | entry::rest, doc =>
    if entry.hidden then addEntries rest doc
    else (addEntryPaths statusText P go pre entry doc).bind (addEntries rest)

def authModeSchemes : List (String × String) :=
  [("jwt","bearerAuth"),("apikey","apiKeyAuth"),("basic","basicAuth"),("oauth","oauthAuth"),
    ("session","sessionAuth")]

def requirementForModes (modes : List String) : List String :=
  (authModeSchemes.filter fun m => m.1 ∈ modes).map Prod.snd

/-- No modes and no requirement are alike here. -/
def securityRequirements (entries : List EntryDef) : List String :=
  requirementForModes ((entries.filter fun e => !e.hidden).flatMap EntryDef.authModes)

variable (pre : String)

def entryModes (entry : EntryDef) : List ((String × String) × List String) :=
  match entry.kind with
  | .rest => if entry.method ≠ "" then
      [((toUpper entry.method,pre ++ entry.path),entry.authModes)] else []
  | .webhook => if entry.method ≠ "" then
      [((toUpper entry.method,pre ++ entry.path),entry.authModes)] else []
  | .crud => [(("GET",basePath pre entry),entry.authModes),
      (("POST",basePath pre entry),entry.authModes),(("GET",idPath pre entry),entry.authModes),
      (("PATCH",idPath pre entry),entry.authModes),
      (("DELETE",idPath pre entry),entry.authModes)]
  | _ => []

/-- The first entry for a key counts. -/
def rememberedModes (entries : List EntryDef) (verb : Verb) (path : String) :
    Option (List String) :=
  ((entries.filter fun e => !e.hidden).flatMap (entryModes pre)).lookup (verb.name,path)

def stamp (modes : Option (List String)) (op : Operation) : Operation :=
  match modes with
  | some modes => { op with security := some (requirementForModes modes) }
  | none => op

def applyEntrySecurity (entries : List EntryDef) (paths : Paths) : Paths := fun path =>
  (paths path).map fun item verb => (item verb).map (stamp (rememberedModes pre entries verb path))

end

def prunes (pattern path : String) : Bool :=
  if pattern = "" then false
  else if hasSuffix pattern "*" then hasPrefix path (trimSuffix pattern "*")
  else path = pattern

def pruneSpecPaths (paths : Paths) (pattern : String) : Paths := fun path =>
  if prunes pattern path then none else paths path

def operationHasTag (excluded : List String) (op : Operation) : Bool :=
  op.tags.any fun tag => tag ∈ excluded

def withoutTags (excluded : List String) (item : PathItem) : PathItem := fun verb =>
  (item verb).filter fun op => !operationHasTag excluded op

def hasOperations (item : PathItem) : Bool :=
  [Verb.get,.post,.put,.patch,.delete].any fun verb => (item verb).isSome

def applySpecExclusions (openapi : Option OpenAPIConf) (paths : Paths) : Paths :=
  match openapi with
  | none => paths
  | some conf =>
    let pruned := conf.excludePaths.foldl pruneSpecPaths paths
    if conf.excludeTags = [] then pruned
    else fun path => ((pruned path).map (withoutTags conf.excludeTags)).filter hasOperations

section

variable (statusText : ℤ → String) {τ : Type} (P : Program τ)

/-- With a bound on the depth of the calls of `fieldToSchemaRef`. -/
def buildOpenAPI (n : ℕ) (cfg : ServiceConfig) : Option Doc :=
  (addEntries statusText P (fieldToSchemaRef P n) cfg.apiPrefix cfg.entries {}).map fun doc =>
    { doc with
      paths := applySpecExclusions cfg.openapi
        (applyEntrySecurity cfg.apiPrefix cfg.entries doc.paths)
      security := securityRequirements cfg.entries }

variable (entry : EntryDef)

def modelsOf : List String :=
  match entry.kind with
  | .crud => [entry.model]
  | .rest => [entry.requestModel,entry.responseModel,entry.errorModel].filter (· ≠ "")
  | .webhook => [entry.requestModel,entry.responseModel,entry.errorModel].filter (· ≠ "")
  | _ => []

def Write.written : Write → Option ((String × Verb) × Operation)
  | .touch _ => none
  | .put path verb op => some ((path,verb),op)
  | .offer path verb op => some ((path,verb),op)
  | .replace path verb op => some ((path,verb),op)

def Operation.Resolved (op : Operation) (c : Components) : Prop :=
  ∀ s ∈ op.schemas, OpenapiSchemas.Resolved s c

end

section

variable {statusText : ℤ → String} {τ : Type} {P : Program τ}
  {go : τ × Components → Option (Schema × Components)} {pre : String} {entry : EntryDef}

variable {op : Operation} {c : Components} {errSchema : Option Schema} {ws : List Write}
  {state : String × GoMap (Option Response)} {doc doc' : Doc} {paths : Paths} {path : String}
  {verb : Verb} {w : Write}

lemma Operation.Resolved.later {c c' : Components} (h : op.Resolved c)
    (hn : ∀ name, (c.lookup name).isSome → (c'.lookup name).isSome) : op.Resolved c' :=
  fun s hs => (h s hs).later hn

lemma sound_modelRef (hgo : SoundCalls P go) {name : String}
    {r : Option Schema × Components} (h : modelRef P go name c = some r) :
    Advances P c r.2 ∧ (∀ s, r.1 = some s → Resolved s r.2) ∧
      (Built P c → name ≠ "" → GroundedModel P name) := by
  unfold modelRef at h
  split_ifs at h with hname
  · cases h
    exact ⟨Advances.refl c,nofun,fun _ hn => absurd hname hn⟩
  · obtain ⟨ha,he,hg⟩ := sound_registerModelSchema hgo h
    exact ⟨ha,he,fun hb _ => hg hb⟩

lemma sound_crudSchema (hgo : SoundCalls P go) {r : Schema × Components}
    (h : crudSchema P go entry c = some r) :
    Advances P c r.2 ∧ Resolved r.1 r.2 ∧ (Built P c → GroundedModel P entry.model) := by
  unfold crudSchema at h
  split at h
  · rename_i hn
    cases h
    refine ⟨Advances.refl c,resolved_inline "" "" c,fun _ t ht => ?_⟩
    simp [fieldTypes, hn] at ht
  · rename_i fields hi
    obtain ⟨first,hfi,he⟩ := bind_eq_some_iff.mp h
    obtain ⟨ha,hre,hg⟩ := sound_buildSchema hgo hi hfi
    obtain ⟨ha',hr',-⟩ := sound_buildSchema hgo hi he
    exact ⟨(ha.set hre hg).trans ha',hr',hg⟩

def ErrorBodies (errSchema : Option Schema) (m : GoMap (Option Response)) : Prop :=
  ∀ p ∈ m, ∀ x, p.2 = some x → x.content = none ∨ x.content = errSchema

lemma ErrorBodies.set {m : GoMap (Option Response)} (h : ErrorBodies errSchema m) (code : String)
    {v : Option Response} (hv : ∀ x, v = some x → x.content = none ∨ x.content = errSchema) :
    ErrorBodies errSchema (Tables.set m code v) := by
  intro p hp
  rcases mem_cons.mp hp with rfl | hp
  · exact hv
  · exact h p (mem_filter.mp hp).1

lemma errorBodies_addResponse (h : ErrorBodies errSchema state.2) (code : String) :
    ErrorBodies errSchema (addResponse statusText entry errSchema state code).2 := by
  unfold addResponse
  split
  · exact h
  · rename_i n _
    by_cases hn : n = (success statusText entry).1
    · simp only [if_pos hn]
      exact h.set code nofun
    · simp only [if_neg hn]
      refine h.set code fun x hx => ?_
      cases hx
      by_cases he : 400 ≤ n
      · exact .inr (if_pos he)
      · exact .inl (if_neg he)

lemma errorBodies_foldl (l : List String) (h : ErrorBodies errSchema state.2) :
    ErrorBodies errSchema (l.foldl (addResponse statusText entry errSchema) state).2 := by
  induction l generalizing state with
  | nil => exact h
  | cons code l ih => exact ih (errorBodies_addResponse h code)

lemma allResponses_content {successSchema errSchema : Option Schema} {r : String × Response}
    (h : r ∈ allResponses statusText entry successSchema errSchema) :
    r.2.content = none ∨ r.2.content = successSchema ∨ r.2.content = errSchema := by
  obtain ⟨p,hp,rfl⟩ := mem_map.mp h
  rcases hx : p.2 with _ | x
  · exact .inr (.inl rfl)
  · have hi : ErrorBodies errSchema [(toString (success statusText entry).1,none)] := by
      intro p hp
      rw [mem_singleton.mp hp]
      nofun
    rcases errorBodies_foldl (codes entry) hi p hp x hx with hn | he
    · exact .inl hn
    · exact .inr (.inr he)

structure SoundWrites (P : Program τ) (c : Components) (r : List Write × Components)
    (names : List String) : Prop where
  advances : Advances P c r.2
  resolved : ∀ w ∈ r.1, ∀ x, w.written = some x → x.2.Resolved r.2
  grounded : Built P c → ∀ name ∈ names, GroundedModel P name

lemma resolved_restOperation {reqSchema : Option Schema} {responses : GoMap Response}
    (hq : ∀ s, reqSchema = some s → Resolved s c)
    (he : ∀ r ∈ responses, ∀ s, r.2.content = some s → Resolved s c) :
    (restOperation entry reqSchema responses).Resolved c := by
  intro s hs
  rcases mem_append.mp hs with hs | hs
  · rw [mem_toList, restOperation] at hs
    dsimp only at hs
    split_ifs at hs
    exact hq s hs
  · obtain ⟨r,hr,ho⟩ := mem_filterMap.mp hs
    exact he r hr s ho

lemma restWrites_written {x : (String × Verb) × Operation}
    (hw : w ∈ restWrites pre entry op) (hx : w.written = some x) : x.2 = op := by
  unfold restWrites at hw
  split at hw
  · rw [mem_singleton.mp hw] at hx
    cases hx
    rfl
  · rw [mem_singleton.mp hw] at hx
    cases hx

section

variable (hgo : SoundCalls P go) {r : List Write × Components}
include hgo

lemma sound_addRestPath (h : addRestPath statusText P go pre entry c = some r) :
    SoundWrites P c r
      ([entry.requestModel,entry.responseModel,entry.errorModel].filter (· ≠ "")) := by
  obtain ⟨req,hq,h⟩ := bind_eq_some_iff.mp h
  obtain ⟨resp,hre,h⟩ := bind_eq_some_iff.mp h
  obtain ⟨responses,he,rfl⟩ := map_eq_some_iff.mp h
  obtain ⟨err,her,rfl⟩ := map_eq_some_iff.mp he
  obtain ⟨ha,hrs,hg⟩ := sound_modelRef hgo hq
  obtain ⟨had,hr1,ho⟩ := sound_modelRef hgo hre
  obtain ⟨hav,hr2,hu⟩ := sound_modelRef hgo her
  refine ⟨(ha.trans had).trans hav,fun w hw x hx => ?_,fun hb name hname => ?_⟩
  · rw [restWrites_written hw hx]
    refine resolved_restOperation (fun s hs => (hrs s hs).later
      (had.trans hav).names) fun p hp s hs => ?_
    rcases allResponses_content hp with hc | hc | hc
    · rw [hc] at hs
      cases hs
    · exact (hr1 s (hc.symm.trans hs)).later hav.names
    · exact hr2 s (hc.symm.trans hs)
  · rw [mem_filter, decide_eq_true_eq] at hname
    obtain ⟨hname,hn⟩ := hname
    simp only [mem_cons, not_mem_nil, or_false] at hname
    rcases hname with rfl | rfl | rfl
    · exact hg hb hn
    · exact ho (ha.built hb) hn
    · exact hu ((ha.trans had).built hb) hn

lemma sound_addCRUDPaths (h : addCRUDPaths P go pre entry c = some r) :
    SoundWrites P c r [entry.model] := by
  obtain ⟨⟨schema,c'⟩,hs,rfl⟩ := map_eq_some_iff.mp h
  obtain ⟨ha,hre,hg⟩ := sound_crudSchema hgo hs
  refine ⟨ha,fun w hw x hx s hs => ?_,fun hb => forall_mem_singleton.mpr (hg hb)⟩
  -- The only schema in these operations is that of the model.
  have he : s = schema := by
    simp only [crudWrites, mem_cons, not_mem_nil, or_false] at hw
    rcases hw with rfl | rfl | rfl | rfl | rfl <;> cases hx <;>
      simp_all [Operation.schemas, responses200, responses201, okResp]
  rw [he]
  exact hre

end

def Plain (ws : List Write) : Prop :=
  ∀ w ∈ ws, ∀ x, w.written = some x → ∀ s ∈ x.2.schemas, ∀ name, ¬Emits s name

lemma Plain.sound (h : Plain ws) (c : Components) : SoundWrites P c (ws,c) [] :=
  ⟨Advances.refl c,fun w hw x hx s hs name hname => absurd hname (h w hw x hx s hs name),
    fun _ => nofun⟩

lemma plain_of_empty (h : ∀ w ∈ ws, ∀ x, w.written = some x → x.2.schemas = []) : Plain ws := by
  intro w hw x hx s hs
  rw [h w hw x hx] at hs
  cases hs

lemma plain_addWSPath : Plain (addWSPath pre entry) := by
  refine plain_of_empty fun w hw x hx => ?_
  rw [mem_singleton.mp hw] at hx
  cases hx
  rfl

lemma plain_addSSEPath : Plain (addSSEPath pre entry) := by
  intro w hw x hx s hs name hname
  rw [mem_singleton.mp hw] at hx
  cases hx
  rw [mem_singleton.mp hs] at hname
  cases hname

lemma plain_addFilePath : Plain (addFilePath pre entry) := by
  refine plain_of_empty fun w hw x hx => ?_
  unfold addFilePath at hw
  split at hw
  · rw [mem_singleton.mp hw] at hx
    cases hx
    rfl
  · cases hw

lemma plain_addAsyncPaths : Plain (addAsyncPaths pre entry) := by
  refine plain_of_empty fun w hw x hx => ?_
  simp only [addAsyncPaths, mem_cons, not_mem_nil, or_false] at hw
  rcases hw with rfl | rfl | rfl | rfl | rfl <;> cases hx <;> rfl

lemma plain_addGraphQLPath : Plain (addGraphQLPath pre entry) := by
  intro w hw x hx s hs name hname
  rw [mem_singleton.mp hw] at hx
  cases hx
  rw [mem_singleton.mp hs] at hname
  rcases hname with _ | _ | _ | ⟨hp,h⟩
  simp only [mem_cons, not_mem_nil, or_false] at hp
  rcases hp with rfl | rfl <;> cases h

lemma sound_entryWrites (hgo : SoundCalls P go)
    {r : List Write × Components} (h : entryWrites statusText P go pre entry c = some r) :
    SoundWrites P c r (modelsOf entry) := by
  unfold entryWrites at h
  unfold modelsOf
  cases hk : entry.kind <;> simp only [hk] at h ⊢
  case crud => exact sound_addCRUDPaths hgo h
  case rest => exact sound_addRestPath hgo h
  case webhook => exact sound_addRestPath hgo h
  all_goals cases h
  case websocket => exact plain_addWSPath.sound c
  case sse => exact plain_addSSEPath.sound c
  case file => exact plain_addFilePath.sound c
  case async => exact plain_addAsyncPaths.sound c
  case graphql => exact plain_addGraphQLPath.sound c
  case grpc => exact ⟨Advances.refl c,nofun,fun _ => nofun⟩

lemma operation_write (h : (paths.write w).operation path verb = some op) :
    paths.operation path verb = some op ∨ w.written = some ((path,verb),op) := by
  cases w with
  | touch p =>
    rw [operation_touch] at h
    exact .inl h
  | put p v new =>
    rw [operation_put] at h
    split_ifs at h with hk
    · obtain ⟨rfl,rfl⟩ := hk
      cases h
      exact .inr rfl
    · exact .inl h
  | offer p v new =>
    rw [operation_offer] at h
    split_ifs at h with hk
    · obtain ⟨rfl,rfl⟩ := hk
      cases ho : paths.operation path verb with
      | none =>
        rw [ho] at h
        cases h
        exact .inr rfl
      | some old =>
        rw [ho] at h
        exact .inl h
    · exact .inl h
  | replace p v new =>
    rw [operation_replace] at h
    split_ifs at h with ha he
    · subst ha he
      cases h
      exact .inr rfl
    · exact .inl h

lemma operation_foldl_write (h : (ws.foldl Paths.write paths).operation path verb = some op) :
    paths.operation path verb = some op ∨ ∃ w ∈ ws, w.written = some ((path,verb),op) := by
  induction ws generalizing paths with
  | nil => exact .inl h
  | cons w ws ih =>
    rcases ih h with ho | ⟨w',hw',hop⟩
    · rcases operation_write ho with ho | hop
      · exact .inl ho
      · exact .inr ⟨w,.head _,hop⟩
    · exact .inr ⟨w',.tail w hw',hop⟩

structure Doc.Sound (doc : Doc) : Prop where
  components : Closed doc.schemas
  operations : ∀ path verb op, doc.paths.operation path verb = some op → op.Resolved doc.schemas

lemma sound_addEntryPaths (hgo : SoundCalls P go) (ho : doc.Sound)
    (h : addEntryPaths statusText P go pre entry doc = some doc') :
    doc'.Sound ∧ (Built P doc.schemas →
      Built P doc'.schemas ∧ ∀ name ∈ modelsOf entry, GroundedModel P name) := by
  obtain ⟨r,hr,rfl⟩ := map_eq_some_iff.mp h
  have hs := sound_entryWrites hgo hr
  refine ⟨⟨hs.advances.closed ho.components,fun path verb op hop => ?_⟩,
    fun hb => ⟨hs.advances.built hb,hs.grounded hb⟩⟩
  rcases operation_foldl_write hop with hl | ⟨w,hw,hop⟩
  · exact (ho.operations path verb op hl).later hs.advances.names
  · exact hs.resolved w hw _ hop

lemma sound_addEntries (hgo : SoundCalls P go) {entries : List EntryDef}
    (hdo : doc.Sound) (h : addEntries statusText P go pre entries doc = some doc') :
    doc'.Sound ∧ (Built P doc.schemas →
      ∀ e ∈ entries, e.hidden = false → ∀ name ∈ modelsOf e, GroundedModel P name) := by
  induction entries generalizing doc with
  | nil =>
    cases h
    exact ⟨hdo,fun _ => forall_mem_nil _⟩
  | cons e entries ih =>
    rw [addEntries] at h
    split_ifs at h with hi
    · obtain ⟨hu,hg⟩ := ih hdo h
      refine ⟨hu,fun hb => forall_mem_cons.mpr ⟨fun hno => ?_,hg hb⟩⟩
      rw [hi] at hno
      cases hno
    · obtain ⟨next,he,ht⟩ := bind_eq_some_iff.mp h
      obtain ⟨hn,ho⟩ := sound_addEntryPaths hgo hdo he
      obtain ⟨hu,hg⟩ := ih hn ht
      exact ⟨hu,fun hb => forall_mem_cons.mpr ⟨fun _ => (ho hb).2,hg (ho hb).1⟩⟩

end

section

variable {pre : String} {entries : List EntryDef} {openapi : Option OpenAPIConf} {paths : Paths}
  {path : String} {verb : Verb} {op : Operation}

lemma operation_applyEntrySecurity :
    (applyEntrySecurity pre entries paths).operation path verb =
      (paths.operation path verb).map (stamp (rememberedModes pre entries verb path)) := by
  unfold applyEntrySecurity Paths.operation
  dsimp only
  cases paths path <;> rfl

lemma schemas_stamp (modes : Option (List String)) (op : Operation) :
    (stamp modes op).schemas = op.schemas := by
  cases modes <;> rfl

lemma operation_foldl_prune (patterns : List String) :
    (patterns.foldl pruneSpecPaths paths).operation path verb =
      if patterns.any fun pattern => prunes pattern path then none
      else paths.operation path verb := by
  induction patterns generalizing paths with
  | nil => rfl
  | cons pattern patterns ih =>
    rw [foldl_cons, ih, any_cons]
    by_cases hp : prunes pattern path
    · simp [hp, Paths.operation, pruneSpecPaths]
    · simp [hp, Paths.operation, pruneSpecPaths]

lemma hasOperations_of_some {item : PathItem} (h : item verb = some op) : hasOperations item := by
  rw [hasOperations, List.any_eq_true]
  exact ⟨verb,by cases verb <;> simp,by rw [h]; rfl⟩

lemma operation_withoutTags (tags : List String) :
    Paths.operation (fun path => ((paths path).map (withoutTags tags)).filter hasOperations)
        path verb =
      (paths.operation path verb).filter fun op => !operationHasTag tags op := by
  unfold Paths.operation
  dsimp only
  cases paths path with
  | none => rfl
  | some item =>
    -- An item that is dropped has no operation left.
    by_cases hi : hasOperations (withoutTags tags item)
    · simp [hi, withoutTags, filter_some]
    · have hn : withoutTags tags item verb = none := by
        rw [eq_none_iff_forall_ne_some]
        exact fun op ho => hi (hasOperations_of_some ho)
      simpa [hi, withoutTags, filter_some] using hn.symm

def excluded (openapi : Option OpenAPIConf) (path : String) (op : Operation) : Bool :=
  match openapi with
  | none => false
  | some conf => (conf.excludePaths.any fun pattern => prunes pattern path) ||
      operationHasTag conf.excludeTags op

lemma operation_applySpecExclusions :
    (applySpecExclusions openapi paths).operation path verb =
      (paths.operation path verb).filter fun op => !excluded openapi path op := by
  cases openapi with
  | none =>
    cases ho : paths.operation path verb <;>
      simp [applySpecExclusions, excluded, ho, filter_some]
  | some conf =>
    have ht : (applySpecExclusions (some conf) paths).operation path verb =
        ((conf.excludePaths.foldl pruneSpecPaths paths).operation path verb).filter
          fun op => !operationHasTag conf.excludeTags op := by
      unfold applySpecExclusions
      dsimp only
      split_ifs with hn
      · rw [hn]
        cases Paths.operation _ path verb <;> simp [operationHasTag, filter_some]
      · exact operation_withoutTags conf.excludeTags
    rw [ht, operation_foldl_prune]
    by_cases hp : conf.excludePaths.any (fun pattern => prunes pattern path)
    · cases paths.operation path verb <;> simp [hp, excluded]
    · cases paths.operation path verb <;> simp [hp, excluded]

variable {statusText : ℤ → String} {τ : Type} {P : Program τ} {cfg : ServiceConfig}

/-- Every model that the document needs is one below which there is no infinite descent. -/
def Documentable (P : Program τ) (cfg : ServiceConfig) : Prop :=
  ∀ e ∈ cfg.entries, e.hidden = false → ∀ name ∈ modelsOf e, GroundedModel P name

lemma sound_buildOpenAPI {n : ℕ} {doc : Doc}
    (h : buildOpenAPI statusText P n cfg = some doc) : doc.Sound ∧ Documentable P cfg := by
  obtain ⟨built,hb,rfl⟩ := map_eq_some_iff.mp h
  have he : Doc.Sound {} := ⟨nofun,nofun⟩
  obtain ⟨ho,hg⟩ := sound_addEntries (sound_fieldToSchemaRef n) he hb
  refine ⟨⟨ho.components,fun path verb op hop => ?_⟩,hg nofun⟩
  dsimp only at hop ⊢
  rw [operation_applySpecExclusions] at hop
  have hop := (filter_eq_some_iff.mp hop).1
  rw [operation_applyEntrySecurity] at hop
  obtain ⟨old,hl,rfl⟩ := map_eq_some_iff.mp hop
  unfold Operation.Resolved
  rw [schemas_stamp]
  exact ho.operations path verb old hl

lemma modelRef_returns {name : String} (h : name ≠ "" → GroundedModel P name)
    (c : Components) : ∃ r, Settles (fun n => modelRef P (fieldToSchemaRef P n) name c) r := by
  unfold modelRef
  by_cases hname : name = ""
  · simp only [if_pos hname]
    exact ⟨_,settles_some⟩
  · simp only [if_neg hname]
    exact registerModelSchema_returns (fun t ht => returns_of_grounded (h hname t ht)) c

variable {pre : String} {entry : EntryDef}

lemma addCRUDPaths_returns (h : GroundedModel P entry.model) (c : Components) :
    ∃ r, Settles (fun n => addCRUDPaths P (fieldToSchemaRef P n) pre entry c) r := by
  suffices hm : ∃ r, Settles (fun n => crudSchema P (fieldToSchemaRef P n) entry c) r by
    obtain ⟨r,hr⟩ := hm
    exact ⟨_,hr.map _⟩
  unfold crudSchema
  split
  · exact ⟨_,settles_some⟩
  · rename_i fields hi
    have he := fun t ht => returns_of_grounded (h t ht)
    obtain ⟨r,hr⟩ := buildSchema_returns hi he c
    obtain ⟨r',hr'⟩ := buildSchema_returns hi he (Tables.set r.2 entry.model r.1)
    exact ⟨r',hr.bind hr'⟩

lemma addRestPath_returns
    (h : ∀ name ∈ [entry.requestModel,entry.responseModel,entry.errorModel].filter (· ≠ ""),
      GroundedModel P name) (c : Components) :
    ∃ r, Settles (fun n => addRestPath statusText P (fieldToSchemaRef P n) pre entry c) r := by
  have hm : ∀ name ∈ [entry.requestModel,entry.responseModel,entry.errorModel], name ≠ "" →
      GroundedModel P name :=
    fun name hname hn => h name (mem_filter.mpr ⟨hname,decide_eq_true hn⟩)
  obtain ⟨req,hq⟩ := modelRef_returns (hm entry.requestModel (by simp)) c
  obtain ⟨resp,he⟩ := modelRef_returns (hm entry.responseModel (by simp)) req.2
  obtain ⟨err,her⟩ := modelRef_returns (hm entry.errorModel (by simp)) resp.2
  exact ⟨_,hq.bind (he.bind ((her.map _).map _))⟩

lemma entryWrites_returns (h : ∀ name ∈ modelsOf entry, GroundedModel P name) (c : Components) :
    ∃ r, Settles (fun n => entryWrites statusText P (fieldToSchemaRef P n) pre entry c) r := by
  unfold modelsOf at h
  unfold entryWrites
  cases hk : entry.kind <;> simp only [hk] at h ⊢
  case crud => exact addCRUDPaths_returns (h entry.model (.head _)) c
  case rest => exact addRestPath_returns h c
  case webhook => exact addRestPath_returns h c
  all_goals exact ⟨_,settles_some⟩

lemma addEntries_returns {entries : List EntryDef}
    (h : ∀ e ∈ entries, e.hidden = false → ∀ name ∈ modelsOf e, GroundedModel P name) (doc : Doc) :
    ∃ r, Settles (fun n => addEntries statusText P (fieldToSchemaRef P n) pre entries doc) r := by
  induction entries generalizing doc with
  | nil => exact ⟨_,settles_some⟩
  | cons e entries ih =>
    obtain ⟨he,ht⟩ := forall_mem_cons.mp h
    by_cases hi : e.hidden
    · simp only [addEntries, if_pos hi]
      exact ih ht doc
    · simp only [addEntries, if_neg hi]
      obtain ⟨r,hr⟩ := entryWrites_returns (he (Bool.not_eq_true _ ▸ hi)) doc.schemas
      obtain ⟨r',hr'⟩ := ih ht
        { doc with paths := r.1.foldl Paths.write doc.paths, schemas := r.2 }
      exact ⟨r',(hr.map _).bind hr'⟩

lemma buildOpenAPI_returns (h : Documentable P cfg) :
    ∃ doc, Settles (fun n => buildOpenAPI statusText P n cfg) doc := by
  obtain ⟨r,hr⟩ := addEntries_returns h {}
  exact ⟨_,hr.map _⟩

/-- The document is built exactly if no model that it needs leads into a
circle of types. Whenever it is built, it has every schema that it refers to. -/
theorem document_built_iff (statusText : ℤ → String) (P : Program τ) (cfg : ServiceConfig) :
    (Documentable P cfg → ∃ doc, Settles (fun n => buildOpenAPI statusText P n cfg) doc) ∧
      (¬Documentable P cfg → ∀ n, buildOpenAPI statusText P n cfg = none) ∧
      ∀ n doc, buildOpenAPI statusText P n cfg = some doc → doc.Sound := by
  refine ⟨buildOpenAPI_returns,fun hno n => ?_,fun n doc h => (sound_buildOpenAPI h).1⟩
  rw [eq_none_iff_forall_ne_some]
  exact fun doc h => hno (sound_buildOpenAPI h).2

end

inductive SampleType where
  | int64
  | category
  | parent
  | author
  | book
  | books
  | authors
  deriving DecidableEq

def sampleProgram : Program SampleType where
  kind
    | .int64 => .int false
    | .category => .struct "Category" false
    | .parent => .pointer .category
    | .author => .struct "Author" false
    | .book => .struct "Book" false
    | .books => .slice .book
    | .authors => .map .author
  models name :=
    if name = "Category" then
      some [{ column := "id", json := "id", type := .int64 },
        { column := "parent", json := "parent", type := .parent }]
    else if name = "Author" then
      some [{ column := "id", json := "id", type := .int64 },
        { column := "books", json := "books", type := .books }]
    else if name = "Book" then
      some [{ column := "id", json := "id", type := .int64 },
        { column := "authors", json := "authors", type := .authors }]
    else none

/-- `POST /api/items` with a body of the model. -/
def bodyOf (model : String) : ServiceConfig where
  apiPrefix := "/api"
  entries := [{ model := "", path := "/items", crud := { tenantField := "" }, kind := .rest
                method := "POST", handler := "create", requestModel := model, located := nofun }]

lemma body_grounded {τ : Type} {P : Program τ} {model : String} (hm : model ≠ "")
    (h : Documentable P (bodyOf model)) : GroundedModel P model := by
  refine h _ (.head _) rfl model ?_
  simp [modelsOf, hm]

def recursiveTypes : List SampleType := [.parent,.books,.book,.authors,.author]

lemma sample_not_grounded {t : SampleType} (h : t ∈ recursiveTypes) :
    ¬Grounded sampleProgram t := by
  refine not_grounded_of_cycle ?_ h
  decide

theorem recursive_models_never_documented :
    (∀ statusText n, buildOpenAPI statusText sampleProgram n (bodyOf "Category") = none) ∧
      ∀ statusText n, buildOpenAPI statusText sampleProgram n (bodyOf "Author") = none := by
  have hn : ∀ (model : String) (t : SampleType), model ≠ "" →
      t ∈ fieldTypes sampleProgram model → t ∈ recursiveTypes →
      ∀ statusText n, buildOpenAPI statusText sampleProgram n (bodyOf model) = none := by
    intro model t hm ht hy statusText n
    rw [eq_none_iff_forall_ne_some]
    intro doc h
    have hg := body_grounded hm (sound_buildOpenAPI h).2
    exact sample_not_grounded hy (hg t ht)
  exact ⟨hn "Category" .parent (by decide) (by decide) (by decide),
    hn "Author" .books (by decide) (by decide) (by decide)⟩

end SdkApi.OpenapiDocument
