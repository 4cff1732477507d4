import SdkApi.AsyncManager
import SdkApi.CheckedLists
import SdkApi.CrudRoutes
import SdkApi.EnvExpansion

/-!
# References of a loaded configuration

`ParseConfig` expands and decodes a configuration and runs a list of
validators over it. They fill in defaults, ask for distinct names in each of
the five lists of named things, and look some of the references up. The
configuration that is returned may still refer to names that nobody declares:
the references which no validator looks at, and those which it skips while a
list is empty or rate limiting is off.
-/

namespace SdkApi.ConfigReferences
open GoStrings CheckedLists AsyncManager List
open EnvExpansion (Bytes expandEnvDefaults)
open CrudRoutes (bind_ok)

structure PoolConf where
  maxConns : ℤ := 10
  minConns : ℤ := 2
  reservedConns : ℤ := 10
  deriving DecidableEq

structure TursoConf where
  mode : String := "local"
  busyTimeout : ℤ := 30000
  deriving DecidableEq

structure DBConfig where
  name : String
  driver : String := "postgres"
  url : String
  authToken : String := ""
  pool : Option PoolConf := none
  turso : Option TursoConf := none
  deriving DecidableEq

structure KVConfig where
  name : String
  url : String
  deriving DecidableEq

structure StreamConfig where
  name : String
  driver : String := "nats"
  deriving DecidableEq

structure StorageDef where
  mode : String
  path : String := ""
  deriving DecidableEq

structure EventPublishTarget where
  stream : String
  eventStream : String := ""
  deriving DecidableEq

structure EntryDef where
  type : String
  method : String := ""
  path : String := ""
  handler : String := ""
  db : String := ""
  cors : String := ""
  csp : String := ""
  serviceName : String := ""
  model : String := ""
  table : String := ""
  resource : String := ""
  eventStream : String := ""
  eventPublish : List EventPublishTarget := []
  storage : Option StorageDef := none
  cache : String := ""
  asyncStore : Option AsyncStoreConf := none
  deriving DecidableEq

structure SubscribeDef where
  stream : String
  subject : String := ""
  durable : String := ""
  deriving DecidableEq

structure ExitWorker where
  name : String
  subscribe : SubscribeDef
  handler : String
  maxConcurrent : ℤ := 1
  db : String := ""
  replyTimeout : String := "30s"
  eventStream : String := ""
  deriving DecidableEq

structure CronPublish where
  stream : String
  subject : String := ""
  deriving DecidableEq

structure CronJob where
  name : String
  schedule : String
  mode : String := "nats"
  publish : Option CronPublish := none
  handler : String := ""
  deriving DecidableEq

structure RateLimitConf where
  enabled : Bool := false
  kv : String := ""
  deriving DecidableEq

/-- `tls` is its field `enabled`, and of the groups the names are kept. -/
structure ServerConf where
  mode : String := ""
  prefork : Bool := false
  tls : Option Bool := none
  rateLimit : Option RateLimitConf := none
  corsGroups : List String := []
  cspGroups : List String := []
  deriving DecidableEq

/-- `deploy` is its target and `sessionStore` that of the auth section. -/
structure ServiceConfig where
  port : ℤ := 8080
  deploy : Option String := none
  server : ServerConf := {}
  databases : List DBConfig := []
  kv : List KVConfig := []
  stream : List StreamConfig := []
  entry : List EntryDef := []
  exit : List ExitWorker := []
  cron : List CronJob := []
  sessionStore : Option String := none
  deriving DecidableEq

/-- The environment, SOPS, the YAML decoder and `strconv.Atoi`. -/
structure Host where
  getenvBytes : Bytes → Bytes
  getenv : String → String
  trySOPSDecrypt : Bytes → Except String Bytes
  loadFromYamlBytes : Bytes → Except String ServiceConfig
  atoi : String → Option ℤ
  text : Bytes → String

section

variable (host : Host)

/-- `fmt.Errorf` with a text in front of the error. -/
def prefixed {α : Type} (where_ : String) (r : Except String α) : Except String α :=
  r.mapError (where_ ++ ·)

def indexed (what : String) (i : ℕ) : String := what ++ "[" ++ toString i ++ "]"

def quote (s : String) : String := "\"" ++ s ++ "\""

def TursoConf.validate (t : TursoConf) : Except String TursoConf :=
  if t.mode ≠ "local" ∧ t.mode ≠ "remote" then
    .error ("turso mode " ++ quote t.mode ++ " invalid (use local or remote)")
  else .ok (if t.busyTimeout < 0 then { t with busyTimeout := 30000 } else t)

def DBConfig.resolveAuthToken (d : DBConfig) : DBConfig :=
  if d.authToken = "" ∨ hasPrefix d.authToken "$\x7b" = false then d
  else
    let v := host.getenv (trimSuffix (trimPrefix d.authToken "$\x7b") "\x7d")
    if v ≠ "" then { d with authToken := v } else d

def DBConfig.normalizeDriver (d : DBConfig) : Except String DBConfig :=
  if d.driver = "postgres" ∨ d.driver = "pg" then .ok { d with driver := "postgres" }
  else if d.driver = "turso" then
    (d.turso.getD ⟨"local",30000⟩).validate.map fun t => { d with turso := some t }
  else if d.driver ∈ ["turso-serverless","libsql","go-libsql"] then
    .ok { d with turso := some (d.turso.getD ⟨"remote",0⟩) }
  else if d.driver = "mysql" ∨ d.driver = "mongo" then .ok d
  else .error ("unknown driver " ++ quote d.driver ++
    " (use postgres, turso, turso-serverless, libsql, go-libsql, mysql, or mongo)")

def PoolConf.normalize (p : PoolConf) : PoolConf where
  maxConns := if p.maxConns < 1 then 10 else p.maxConns
  minConns := if p.minConns < 1 then 2 else p.minConns
  reservedConns := if p.reservedConns < 1 then 10 else p.reservedConns

def DBConfig.validate (d : DBConfig) : Except String DBConfig :=
  if d.name = "" then .error "name is required"
  else if d.url = "" then .error "url is required"
  else if d.driver = "" then
    .error ("driver is required (postgres, mysql, turso, turso-serverless, libsql, go-libsql," ++
      " or mongo)")
  else
    (d.resolveAuthToken host).normalizeDriver.map fun d =>
      if d.driver = "mongo" then d
      else { d with pool := some (d.pool.getD {}).normalize }

def specialToSnake : List (String × String) :=
  [("ID","id"),("URL","url"),("API","api"),("JSON","json"),("XML","xml"),("HTML","html"),
    ("SQL","sql"),("SSH","ssh"),("UUID","uuid"),("JWT","jwt"),("NATS","nats"),("HTTP","http"),
    ("DB","db"),("WS","ws"),("SSE","sse")]

def upperCase (c : Char) : Bool := 'A' ≤ c && c ≤ 'Z'

def lowerCase (c : Char) : Bool := 'a' ≤ c && c ≤ 'z'

def shouldInsertUnderscore (prev : Option Char) (c : Char) (next : Option Char) : Bool :=
  upperCase c && (prev.any lowerCase || (prev.any upperCase && next.any lowerCase))

/-- The loop of `toSnake`, with the character before. -/
def snakeFrom : Option Char → List Char → List Char
  | _, [] => []
  | prev, c::cs =>
    (if shouldInsertUnderscore prev c cs.head? then ['_'] else []) ++
      (if upperCase c then Char.ofNat (c.toNat+32) else c)::snakeFrom (some c) cs

def toSnake (s : String) : String :=
  match specialToSnake.lookup s with
  | some mapped => mapped
  | none => if s.toList.length ≤ 1 then s else String.ofList (snakeFrom none s.toList)

def plural (s : String) : String :=
  match s.toList.reverse with
  | [] => ""
  | 's'::_ => s
  | 'y'::c::rest =>
    if c ∈ ['a','e','i','o','u'] then s ++ "s" else String.ofList (c::rest).reverse ++ "ies"
  | _ => s ++ "s"

abbrev Validated := EntryDef × Option String

def required (kind : String) (fields : List (String × String)) : Option String :=
  (fields.find? fun f => decide (f.2 = "")).map fun f => kind ++ ": " ++ f.1 ++ " is required"

def EntryDef.validateCRUD (e : EntryDef) : Validated :=
  match required "crud" [("model",e.model),("db",e.db)] with
  | some err => (e,some err)
  | none =>
    let e := if e.table = "" then { e with table := toSnake e.model } else e
    let e := if e.resource = "" then { e with resource := plural e.table } else e
    (if e.path = "" then { e with path := "/" ++ e.resource } else e,none)

def EntryDef.validateREST (e : EntryDef) : Validated :=
  (e,required "rest" [("method",e.method),("path",e.path),("handler",e.handler)])

def EntryDef.validateWebhook (e : EntryDef) : Validated :=
  let e := if e.method = "" then { e with method := "POST" } else e
  (e,required "webhook" [("path",e.path),("handler",e.handler)])

def EntryDef.validateWebSocket (e : EntryDef) : Validated :=
  (e,required "websocket" [("path",e.path),("handler",e.handler)])

def EntryDef.validateSSE (e : EntryDef) : Validated :=
  (e,required "sse" [("path",e.path),("handler",e.handler)])

def EntryDef.validateFile (e : EntryDef) : Validated :=
  match required "file" [("method",e.method),("path",e.path),("handler",e.handler)] with
  | some err => (e,some err)
  | none =>
    (e,match e.storage with
      | none => some "file: storage is required"
      | some st =>
        if st.mode ≠ "s3" ∧ st.mode ≠ "local" then
          some ("file: storage.mode must be s3 or local (got " ++ quote st.mode ++ ")")
        else if st.mode = "local" ∧ st.path = "" then
          some "file: storage.path is required for mode=local"
        else none)

def EntryDef.validateAsync (e : EntryDef) : Validated :=
  if e.path = "" ∧ e.resource = "" then (e,some "async: path or resource is required")
  else
    let e := if e.path = "" then { e with path := "/" ++ trimPrefix e.resource "/" } else e
    (e,required "async" [("handler",e.handler)])

def EntryDef.validateGRPC (e : EntryDef) : Validated :=
  (e,required "grpc" [("service name",e.serviceName)])

def EntryDef.validateGraphQL (e : EntryDef) : Validated :=
  (e,required "graphql" [("path",e.path)])

def EntryDef.validate (e : EntryDef) : Validated :=
  if e.type = "" then (e,some "type is required")
  else if e.type = "crud" then e.validateCRUD
  else if e.type = "rest" then e.validateREST
  else if e.type = "webhook" then e.validateWebhook
  else if e.type = "websocket" then e.validateWebSocket
  else if e.type = "sse" then e.validateSSE
  else if e.type = "file" then e.validateFile
  else if e.type = "async" then e.validateAsync
  else if e.type = "graphql" then e.validateGraphQL
  else if e.type = "grpc" then e.validateGRPC
  else (e,some ("unknown entry type " ++ quote e.type ++
    " (use crud, rest, webhook, websocket, sse, file, async, grpc, or graphql)"))

def ExitWorker.validate (e : ExitWorker) : Except String ExitWorker :=
  if e.name = "" then .error "name is required"
  else if e.subscribe.stream = "" then .error "subscribe.stream is required"
  else if e.handler = "" then .error "handler is required"
  else .ok { e with
    subscribe := { e.subscribe with
      subject := if e.subscribe.subject = "" then e.subscribe.stream else e.subscribe.subject
      durable := if e.subscribe.durable = "" then e.name ++ "-worker" else e.subscribe.durable }
    maxConcurrent := if e.maxConcurrent < 1 then 1 else e.maxConcurrent
    replyTimeout := if e.replyTimeout = "" then "30s" else e.replyTimeout }

def CronJob.validate (c : CronJob) : Except String CronJob :=
  if c.name = "" then .error "name is required"
  else if c.schedule = "" then .error "schedule is required"
  else
    let c := if c.mode = "" then { c with mode := "nats" } else c
    if c.mode = "nats" then
      match c.publish with
      | none => .error "mode=nats: publish.stream is required"
      | some p =>
        if p.stream = "" then .error "mode=nats: publish.stream is required"
        else .ok (if p.subject = "" then { c with publish := some ⟨p.stream,p.stream⟩ } else c)
    else if c.mode = "handler" then
      if c.handler = "" then .error "mode=handler: handler is required" else .ok c
    else if c.mode = "internal" then .ok c
    else .error ("unknown cron mode " ++ quote c.mode ++ " (use nats, handler, or internal)")

variable (cfg : ServiceConfig)

def applyEnvOverrides : ServiceConfig :=
  match host.atoi (host.getenv "PORT") with
  | some p => if host.getenv "PORT" ≠ "" ∧ 0 < p then { cfg with port := p } else cfg
  | none => cfg

def validateServerMode : Except String ServiceConfig :=
  let cfg := if cfg.server.mode = "" then
    { cfg with server := { cfg.server with mode := "monolith" } } else cfg
  if cfg.server.mode ≠ "monolith" ∧ cfg.server.mode ≠ "micro" then
    .error ("server.mode must be 'monolith' or 'micro' (got " ++ quote cfg.server.mode ++ ")")
  else .ok cfg

def validateConfigDeploy : Except String Unit :=
  match cfg.deploy with
  | none => .ok ()
  | some target =>
    if target = "" ∨ target = "auto" then .ok ()
    else if target ∉ ["vercel","docker","kube","bare-metal"] then
      .error ("deploy.target: invalid value " ++ quote target ++
        " (valid: auto, vercel, docker, kube, bare-metal)")
    else if cfg.server.prefork ∧ target = "vercel" then
      .error ("deploy.target=vercel: server.prefork must be false" ++
        " (Vercel does not support SO_REUSEPORT)")
    else if cfg.server.tls = some true ∧ target = "vercel" then
      .error ("deploy.target=vercel: server.tls.enabled must be false" ++
        " (Vercel terminates TLS at edge)")
    else .ok ()

def duplicate (what : String) (i : ℕ) (name : String) : String :=
  indexed what i ++ ": duplicate name " ++ quote name

/-- The first check of the lists whose elements have no validator. -/
def named {α : Type} (what : String) (name : α → String) (i : ℕ) (x : α) : Except String α :=
  if name x = "" then .error (indexed what i ++ ": name is required") else .ok x

def validateConfigDatabases : Except String ServiceConfig :=
  (checkDistinct DBConfig.name (duplicate "databases")
    (fun i d => prefixed (indexed "databases" i ++ " (" ++ d.name ++ "): ") (d.validate host))
    (fun _ d => .ok d) 0 [] cfg.databases).map fun dbs => { cfg with databases := dbs }

def validateGroups (what : String) (names : List String) (ref : EntryDef → String) :
    Except String Unit := do
  let _ ← checkDistinct id (duplicate (what ++ "_groups")) (named (what ++ "_groups") id)
    (fun _ g => .ok g) 0 [] names
  let _ ← checkAll (fun i (e : EntryDef) =>
    if ref e ≠ "" ∧ ref e ∉ names then
      .error (indexed "entry" i ++ " (" ++ e.path ++ "): " ++ what ++ " " ++ quote (ref e) ++
        " not found in " ++ what ++ "_groups")
    else .ok e) 0 cfg.entry
  pure ()

def validateConfigCORSGroups : Except String Unit :=
  validateGroups cfg "cors" cfg.server.corsGroups EntryDef.cors

def validateConfigCSPGroups : Except String Unit :=
  validateGroups cfg "csp" cfg.server.cspGroups EntryDef.csp

def validateConfigStream : Except String Unit := do
  let _ ← checkDistinct StreamConfig.name (duplicate "stream") (named "stream" StreamConfig.name)
    (fun i st =>
      if st.driver ≠ "nats" ∧ st.driver ≠ "kafka" then
        .error (indexed "stream" i ++ " (" ++ st.name ++ "): driver must be nats or kafka")
      else .ok st) 0 [] cfg.stream
  pure ()

def checkDB (where_ db : String) : Except String Unit :=
  if db ≠ "" ∧ db ∉ cfg.databases.map DBConfig.name ∧ 0 < cfg.databases.length then
    .error (where_ ++ ": db " ++ quote db ++ " not found in databases")
  else .ok ()

def validateConfigEntries : Except String ServiceConfig :=
  (checkAll (fun i (e : EntryDef) =>
    match e.validate with
    | (e,some err) => .error (indexed "entry" i ++ " (" ++ e.type ++ " " ++ e.path ++ "): " ++ err)
    | (e,none) => (checkDB cfg (indexed "entry" i ++ " (" ++ e.path ++ ")") e.db).map fun _ => e)
    0 cfg.entry).map fun entries => { cfg with entry := entries }

def validateConfigExits : Except String ServiceConfig :=
  (checkAll (fun i (e : ExitWorker) => do
    let e ← prefixed (indexed "exit" i ++ " (" ++ e.name ++ "): ") e.validate
    checkDB cfg (indexed "exit" i ++ " (" ++ e.name ++ ")") e.db
    pure e) 0 cfg.exit).map fun exits => { cfg with exit := exits }

def validateConfigCron : Except String ServiceConfig :=
  (checkAll
    (fun i (c : CronJob) => prefixed (indexed "cron" i ++ " (" ++ c.name ++ "): ") c.validate)
    0 cfg.cron).map fun jobs => { cfg with cron := jobs }

def validateConfigKV : Except String Unit := do
  let _ ← checkDistinct KVConfig.name (duplicate "kv") (named "kv" KVConfig.name) (fun i kv =>
      if kv.url = "" then .error (indexed "kv" i ++ " (" ++ kv.name ++ "): url is required")
      else .ok kv) 0 [] cfg.kv
  pure ()

/-- Entries are looked up if there are KV stores besides. -/
def validateConfigRateLimit : Except String Unit :=
  match cfg.server.rateLimit with
  | none => .ok ()
  | some rl =>
    if rl.enabled = false then .ok ()
    else if rl.kv ≠ "" ∧ rl.kv ∉ cfg.kv.map KVConfig.name then
      .error ("server.rate_limit.kv " ++ quote rl.kv ++ " not found in kv[] section")
    else do
      let _ ← checkAll (fun i (e : EntryDef) =>
        if e.cache ≠ "" ∧ e.cache ∉ cfg.kv.map KVConfig.name ∧ 0 < cfg.kv.length then
          .error (indexed "entry" i ++ " (" ++ e.path ++ "): cache " ++ quote e.cache ++
            " not found in kv[] section")
        else .ok e) 0 cfg.entry
      pure ()

def validateConfig (cfg : ServiceConfig) : Except String ServiceConfig := do
  let cfg ← validateServerMode cfg
  validateConfigDeploy cfg
  let cfg ← validateConfigDatabases host cfg
  validateConfigCORSGroups cfg
  validateConfigCSPGroups cfg
  validateConfigStream cfg
  let cfg ← validateConfigEntries cfg
  let cfg ← validateConfigExits cfg
  let cfg ← validateConfigCron cfg
  validateConfigKV cfg
  validateConfigRateLimit cfg
  pure cfg

def parseConfig (content : Bytes) : Except String ServiceConfig := do
  let decrypted ← prefixed "decrypt config: " (host.trySOPSDecrypt content)
  match expandEnvDefaults host.getenvBytes decrypted with
  | (_,some err) => .error (host.text err)
  | (expanded,none) =>
    let cfg ← host.loadFromYamlBytes expanded
    validateConfig host (applyEnvOverrides host cfg)

inductive Listing where
  | databases
  | kv
  | stream
  | corsGroups
  | cspGroups
  deriving DecidableEq

def ServiceConfig.names (cfg : ServiceConfig) : Listing → List String
  | .databases => cfg.databases.map DBConfig.name
  | .kv => cfg.kv.map KVConfig.name
  | .stream => cfg.stream.map StreamConfig.name
  | .corsGroups => cfg.server.corsGroups
  | .cspGroups => cfg.server.cspGroups

def asyncConnection (conf : AsyncStoreConf) : List (Listing × String) :=
  if conf.driver = "postgres" then [(.databases,conf.db)]
  else if conf.driver = "redis" then [(.kv,conf.kv)]
  else if conf.driver = "nats_kv" then [(.stream,conf.stream)]
  else []

def EntryDef.brokers (e : EntryDef) : List String :=
  e.eventStream::e.eventPublish.map EventPublishTarget.eventStream

def EntryDef.references (e : EntryDef) : List (Listing × String) :=
  [(.databases,e.db),(.kv,e.cache),(.corsGroups,e.cors),(.cspGroups,e.csp)] ++
    (e.brokers.map fun name => (.stream,name)) ++ e.asyncStore.toList.flatMap asyncConnection

def ExitWorker.references (e : ExitWorker) : List (Listing × String) :=
  [(.databases,e.db),(.stream,e.eventStream)]

def ServiceConfig.references (cfg : ServiceConfig) : List (Listing × String) :=
  cfg.entry.flatMap EntryDef.references ++ cfg.exit.flatMap ExitWorker.references ++
    cfg.server.rateLimit.toList.map (fun rl => (.kv,rl.kv)) ++
    cfg.sessionStore.toList.map fun store => (.kv,store)

/-- An empty name is no reference. -/
def ServiceConfig.Declares (cfg : ServiceConfig) (r : Listing × String) : Prop :=
  r.2 ≠ "" → r.2 ∈ cfg.names r.1

def NoDangling (cfg : ServiceConfig) : Prop := ∀ r ∈ cfg.references, cfg.Declares r

def ServiceConfig.limited (cfg : ServiceConfig) : Bool := cfg.server.rateLimit.any (·.enabled)

/-- The references that no validator has looked up are declared. -/
structure Unchecked (cfg : ServiceConfig) : Prop where
  entryDB : cfg.databases = [] → ∀ e ∈ cfg.entry, e.db = ""
  exitDB : cfg.databases = [] → ∀ e ∈ cfg.exit, e.db = ""
  cache : cfg.limited = false ∨ cfg.kv = [] → ∀ e ∈ cfg.entry, cfg.Declares (.kv,e.cache)
  rateLimit : cfg.limited = false → ∀ rl, cfg.server.rateLimit = some rl → cfg.Declares (.kv,rl.kv)
  entryStream : ∀ e ∈ cfg.entry, ∀ name ∈ e.brokers, cfg.Declares (.stream,name)
  exitStream : ∀ e ∈ cfg.exit, cfg.Declares (.stream,e.eventStream)
  asyncStore : ∀ e ∈ cfg.entry, ∀ conf, e.asyncStore = some conf →
    ∀ r ∈ asyncConnection conf, cfg.Declares r
  session : ∀ store, cfg.sessionStore = some store → cfg.Declares (.kv,store)

structure Checked (cfg : ServiceConfig) : Prop where
  distinct : ∀ l, (cfg.names l).Nodup
  named : ∀ l, "" ∉ cfg.names l
  cors : ∀ e ∈ cfg.entry, cfg.Declares (.corsGroups,e.cors)
  csp : ∀ e ∈ cfg.entry, cfg.Declares (.cspGroups,e.csp)
  entryDB : cfg.databases ≠ [] → ∀ e ∈ cfg.entry, cfg.Declares (.databases,e.db)
  exitDB : cfg.databases ≠ [] → ∀ e ∈ cfg.exit, cfg.Declares (.databases,e.db)
  rateLimit : cfg.limited = true → ∀ rl, cfg.server.rateLimit = some rl → cfg.Declares (.kv,rl.kv)
  cache : cfg.limited = true → cfg.kv ≠ [] → ∀ e ∈ cfg.entry, cfg.Declares (.kv,e.cache)

variable {cfg : ServiceConfig}

lemma noDangling_iff : NoDangling cfg ↔
    (∀ e ∈ cfg.entry, cfg.Declares (.databases,e.db) ∧ cfg.Declares (.kv,e.cache) ∧
      cfg.Declares (.corsGroups,e.cors) ∧ cfg.Declares (.cspGroups,e.csp) ∧
      (∀ name ∈ e.brokers, cfg.Declares (.stream,name)) ∧
      ∀ conf, e.asyncStore = some conf → ∀ r ∈ asyncConnection conf, cfg.Declares r) ∧
    (∀ e ∈ cfg.exit, cfg.Declares (.databases,e.db) ∧ cfg.Declares (.stream,e.eventStream)) ∧
    (∀ rl, cfg.server.rateLimit = some rl → cfg.Declares (.kv,rl.kv)) ∧
    ∀ store, cfg.sessionStore = some store → cfg.Declares (.kv,store) := by
  have he : ∀ e : EntryDef, (∀ r ∈ e.references, cfg.Declares r) ↔
      cfg.Declares (.databases,e.db) ∧ cfg.Declares (.kv,e.cache) ∧
      cfg.Declares (.corsGroups,e.cors) ∧ cfg.Declares (.cspGroups,e.csp) ∧
      (∀ name ∈ e.brokers, cfg.Declares (.stream,name)) ∧
      ∀ conf, e.asyncStore = some conf → ∀ r ∈ asyncConnection conf, cfg.Declares r := by
    intro e
    simp only [EntryDef.references, forall_mem_append, forall_mem_cons,
      forall_mem_map, forall_mem_flatMap, Option.mem_toList, and_assoc]
    simp
  have hx : ∀ e : ExitWorker, (∀ r ∈ e.references, cfg.Declares r) ↔
      cfg.Declares (.databases,e.db) ∧ cfg.Declares (.stream,e.eventStream) := by
    intro e
    simp [ExitWorker.references]
  simp only [NoDangling, ServiceConfig.references, forall_mem_append, forall_mem_flatMap,
    forall_mem_map, Option.mem_toList, he, hx, and_assoc]

lemma noDangling_iff_unchecked (h : Checked cfg) : NoDangling cfg ↔ Unchecked cfg := by
  rw [noDangling_iff]
  constructor
  · rintro ⟨hn,hx,ht,hi⟩
    constructor
    · intro hm e he
      by_contra hne
      simpa [ServiceConfig.names, hm] using (hn e he).1 hne
    · intro hm e he
      by_contra hne
      simpa [ServiceConfig.names, hm] using (hx e he).1 hne
    · exact fun _ e he => (hn e he).2.1
    · exact fun _ => ht
    · exact fun e he => (hn e he).2.2.2.2.1
    · exact fun e he => (hx e he).2
    · exact fun e he => (hn e he).2.2.2.2.2
    · exact hi
  · intro ho
    refine ⟨fun e he => ⟨?_,?_,h.cors e he,h.csp e he,ho.entryStream e he,
      ho.asyncStore e he⟩,fun e he => ⟨?_,ho.exitStream e he⟩,?_,ho.session⟩
    · by_cases hm : cfg.databases = []
      · exact fun hne => absurd (ho.entryDB hm e he) hne
      · exact h.entryDB hm e he
    · by_cases hk : cfg.limited ∧ cfg.kv ≠ []
      · exact h.cache hk.1 hk.2 e he
      · refine ho.cache ?_ e he
        rcases not_and_or.mp hk with hof | hm
        · exact .inl (Bool.eq_false_iff.mpr hof)
        · exact .inr (not_not.mp hm)
    · by_cases hm : cfg.databases = []
      · exact fun hne => absurd (ho.exitDB hm e he) hne
      · exact h.exitDB hm e he
    · cases hl : cfg.limited with
      | true => exact h.rateLimit hl
      | false => exact ho.rateLimit hl

end

section

variable {host : Host} {cfg cfg' : ServiceConfig}

lemma map_ok {α β : Type} {x : Except String α} {f : α → β} {b : β} (h : x.map f = .ok b) :
    ∃ a, x = .ok a ∧ f a = b := by
  cases x with
  | error e => cases h
  | ok a => exact ⟨a,rfl,Except.ok.inj h⟩

variable {α : Type} {what : String} {name : α → String}

lemma prefixed_ok {where_ : String} {x : Except String α} {a : α}
    (h : prefixed where_ x = .ok a) : x = .ok a := by
  cases x with
  | error e => cases h
  | ok b => exact h

lemma named_ok {i : ℕ} {x y : α} (h : named what name i x = .ok y) : y = x ∧ name y ≠ "" := by
  unfold named at h
  split_ifs at h with hname
  cases h
  exact ⟨rfl,hname⟩

lemma validateServerMode_ok (h : validateServerMode cfg = .ok cfg') :
    ∃ mode, cfg' = { cfg with server := { cfg.server with mode := mode } } := by
  unfold validateServerMode at h
  dsimp only at h
  split_ifs at h <;> cases h
  · exact ⟨_,rfl⟩
  · exact ⟨cfg.server.mode,rfl⟩

lemma DBConfig.validate_ok {d d' : DBConfig} (h : d.validate host = .ok d') : d'.name ≠ "" := by
  unfold DBConfig.validate at h
  split_ifs at h with hname hu hi
  obtain ⟨d1,hd1,rfl⟩ := map_ok h
  have he : (d.resolveAuthToken host).name = d.name := by
    unfold DBConfig.resolveAuthToken
    dsimp only
    split_ifs <;> rfl
  have hn : d1.name = d.name := by
    rw [← he]
    unfold DBConfig.normalizeDriver at hd1
    split_ifs at hd1
    · cases hd1
      rfl
    · obtain ⟨t,-,rfl⟩ := map_ok hd1
      rfl
    · cases hd1
      rfl
    · cases hd1
      rfl
  split_ifs
  · exact hn ▸ hname
  · exact hn ▸ hname

lemma validateConfigDatabases_ok (h : validateConfigDatabases host cfg = .ok cfg') :
    ∃ dbs : List DBConfig, cfg' = { cfg with databases := dbs } ∧ (dbs.map DBConfig.name).Nodup ∧
      "" ∉ dbs.map DBConfig.name := by
  obtain ⟨dbs,hb,rfl⟩ := map_ok h
  obtain ⟨hn,ha⟩ := checkDistinct_ok (P := (· ≠ "")) (fun i x y hy => by cases hy; rfl)
    (fun i x y hy => DBConfig.validate_ok (prefixed_ok hy)) hb
  exact ⟨dbs,rfl,hn,fun hm => (ha _ hm).1 rfl⟩

lemma distinct_of_checks {last : ℕ → α → Except String α} {xs zs : List α}
    (hl : ∀ i x y, last i x = .ok y → y = x)
    (h : checkDistinct name (duplicate what) (named what name) last 0 [] xs = .ok zs) :
    (xs.map name).Nodup ∧ "" ∉ xs.map name := by
  obtain rfl := checkDistinct_same (fun i x y hy => (named_ok hy).1) hl h
  obtain ⟨hn,ha⟩ := checkDistinct_ok (P := (· ≠ ""))
    (fun i x y hy => congrArg name (hl i x y hy)) (fun i x y hy => (named_ok hy).2) h
  exact ⟨hn,fun hm => (ha _ hm).1 rfl⟩

lemma ok_of_ite {p : Prop} [Decidable p] {msg : String} {x y : α}
    (h : (if p then .error msg else .ok x : Except String α) = .ok y) : ¬p ∧ y = x := by
  split_ifs at h with hp
  cases h
  exact ⟨hp,rfl⟩

lemma checkAll_ite {p : α → Prop} [DecidablePred p] {msg : ℕ → α → String} {xs ys : List α}
    (h : checkAll (fun i x => if p x then .error (msg i x) else .ok x : ℕ → α → Except String α)
      0 xs = .ok ys) : ∀ x ∈ xs, ¬p x := by
  intro x hx
  obtain ⟨j,y,hy⟩ := (checkAll_ok h).1 x hx
  exact (ok_of_ite hy).1

lemma validateGroups_ok {names : List String} {ref : EntryDef → String}
    (h : validateGroups cfg what names ref = .ok ()) :
    names.Nodup ∧ "" ∉ names ∧ ∀ e ∈ cfg.entry, ref e ≠ "" → ref e ∈ names := by
  obtain ⟨_,ha,h⟩ := bind_ok h
  obtain ⟨_,hre,-⟩ := bind_ok h
  obtain ⟨hn,hne⟩ := distinct_of_checks (fun i x y hy => by cases hy; rfl) ha
  rw [map_id] at hn hne
  refine ⟨hn,hne,fun e he hrf => ?_⟩
  by_contra hno
  exact checkAll_ite hre e he ⟨hrf,hno⟩

lemma validateConfigStream_ok (h : validateConfigStream cfg = .ok ()) :
    (cfg.stream.map StreamConfig.name).Nodup ∧ "" ∉ cfg.stream.map StreamConfig.name := by
  obtain ⟨_,hn,-⟩ := bind_ok h
  exact distinct_of_checks (fun i x y hy => (ok_of_ite hy).2) hn

lemma validateConfigKV_ok (h : validateConfigKV cfg = .ok ()) :
    (cfg.kv.map KVConfig.name).Nodup ∧ "" ∉ cfg.kv.map KVConfig.name := by
  obtain ⟨_,hn,-⟩ := bind_ok h
  exact distinct_of_checks (fun i x y hy => (ok_of_ite hy).2) hn

lemma checkDB_ok {where_ db : String} (h : checkDB cfg where_ db = .ok ())
    (hn : cfg.databases ≠ []) : cfg.Declares (.databases,db) := by
  intro hb
  by_contra hno
  unfold checkDB at h
  rw [if_pos ⟨hb,hno,length_pos_of_ne_nil hn⟩] at h
  cases h

def KeepsGroups (e : EntryDef) (v : Validated) : Prop := v.1.cors = e.cors ∧ v.1.csp = e.csp

lemma keepsGroups_same (e : EntryDef) {err : Option String} : KeepsGroups e (e,err) := ⟨rfl,rfl⟩

lemma keepsGroups_ite {e : EntryDef} {p : Prop} [Decidable p] {v w : Validated}
    (hv : KeepsGroups e v) (hw : KeepsGroups e w) : KeepsGroups e (if p then v else w) := by
  split
  · exact hv
  · exact hw

section

variable (e : EntryDef)

lemma keepsGroups_crud : KeepsGroups e e.validateCRUD := by
  unfold KeepsGroups EntryDef.validateCRUD
  split
  · exact ⟨rfl,rfl⟩
  · dsimp only
    split_ifs <;> exact ⟨rfl,rfl⟩

lemma keepsGroups_webhook : KeepsGroups e e.validateWebhook := by
  unfold KeepsGroups EntryDef.validateWebhook
  dsimp only
  split_ifs <;> exact ⟨rfl,rfl⟩

lemma keepsGroups_file : KeepsGroups e e.validateFile := by
  unfold EntryDef.validateFile
  split
  · exact keepsGroups_same e
  · exact keepsGroups_same e

lemma keepsGroups_async : KeepsGroups e e.validateAsync := by
  unfold KeepsGroups EntryDef.validateAsync
  dsimp only
  split_ifs <;> exact ⟨rfl,rfl⟩

lemma keepsGroups_validate : KeepsGroups e e.validate := by
  unfold EntryDef.validate
  refine keepsGroups_ite (keepsGroups_same e) ?_
  refine keepsGroups_ite (keepsGroups_crud e) ?_
  refine keepsGroups_ite (keepsGroups_same e) ?_
  refine keepsGroups_ite (keepsGroups_webhook e) ?_
  refine keepsGroups_ite (keepsGroups_same e) (keepsGroups_ite (keepsGroups_same e) ?_)
  refine keepsGroups_ite (keepsGroups_file e) (keepsGroups_ite (keepsGroups_async e) ?_)
  refine keepsGroups_ite (keepsGroups_same e) (keepsGroups_ite (keepsGroups_same e) ?_)
  exact keepsGroups_same e

end

lemma validateConfigEntries_ok (h : validateConfigEntries cfg = .ok cfg') :
    ∃ entries : List EntryDef, cfg' = { cfg with entry := entries } ∧ ∀ e ∈ entries,
      (∃ e0 ∈ cfg.entry, e.cors = e0.cors ∧ e.csp = e0.csp) ∧
      (cfg.databases ≠ [] → cfg.Declares (.databases,e.db)) := by
  obtain ⟨entries,hn,rfl⟩ := map_ok h
  refine ⟨entries,rfl,fun e he => ?_⟩
  obtain ⟨j,e0,he0,hk⟩ := (checkAll_ok hn).2 e he
  have hg := keepsGroups_validate e0
  unfold KeepsGroups at hg
  rcases ha : e0.validate with ⟨e1,err⟩
  rw [ha] at hk hg
  cases err with
  | some err => cases hk
  | none =>
    obtain ⟨_,hb,rfl⟩ := map_ok hk
    exact ⟨⟨e0,he0,hg⟩,checkDB_ok hb⟩

lemma validateConfigExits_ok (h : validateConfigExits cfg = .ok cfg') :
    ∃ exits : List ExitWorker, cfg' = { cfg with exit := exits } ∧ ∀ e ∈ exits,
      cfg.databases ≠ [] → cfg.Declares (.databases,e.db) := by
  obtain ⟨exits,hx,rfl⟩ := map_ok h
  refine ⟨exits,rfl,fun e he => ?_⟩
  obtain ⟨j,e0,-,hk⟩ := (checkAll_ok hx).2 e he
  obtain ⟨e1,-,hk⟩ := bind_ok hk
  obtain ⟨_,hb,hk⟩ := bind_ok hk
  cases hk
  exact checkDB_ok hb

lemma validateConfigRateLimit_ok (h : validateConfigRateLimit cfg = .ok ()) (hl : cfg.limited) :
    (∀ rl, cfg.server.rateLimit = some rl → cfg.Declares (.kv,rl.kv)) ∧
      (cfg.kv ≠ [] → ∀ e ∈ cfg.entry, cfg.Declares (.kv,e.cache)) := by
  unfold validateConfigRateLimit at h
  unfold ServiceConfig.limited at hl
  split at h
  · rename_i hn
    rw [hn] at hl
    cases hl
  · rename_i rl hrl
    have ho : rl.enabled := by simpa [hrl] using hl
    rw [if_neg (by simp [ho])] at h
    split_ifs at h with hm
    obtain ⟨_,ha,-⟩ := bind_ok h
    constructor
    · intro rl' hr' hne
      rw [hrl] at hr'
      cases hr'
      by_contra hno
      exact hm ⟨hne,hno⟩
    · intro hk e he hne
      by_contra hno
      exact checkAll_ite ha e he ⟨hne,hno,length_pos_of_ne_nil hk⟩

lemma checked_of_validateConfig (h : validateConfig host cfg = .ok cfg') : Checked cfg' := by
  obtain ⟨cfg1,hmo,h⟩ := bind_ok h
  obtain ⟨_,-,h⟩ := bind_ok h
  obtain ⟨cfg2,ha,h⟩ := bind_ok h
  obtain ⟨_,hcr,h⟩ := bind_ok h
  obtain ⟨_,hc1,h⟩ := bind_ok h
  obtain ⟨_,hse,h⟩ := bind_ok h
  obtain ⟨cfg3,hi,h⟩ := bind_ok h
  obtain ⟨cfg4,hx,h⟩ := bind_ok h
  obtain ⟨cfg5,hcn,h⟩ := bind_ok h
  obtain ⟨_,hkv,h⟩ := bind_ok h
  obtain ⟨_,hli,h⟩ := bind_ok h
  cases h
  obtain ⟨mode,rfl⟩ := validateServerMode_ok hmo
  obtain ⟨dbs,rfl,hdb,hb⟩ := validateConfigDatabases_ok ha
  obtain ⟨ho,hn,hco⟩ := validateGroups_ok hcr
  obtain ⟨hm,hcs,hcp⟩ := validateGroups_ok hc1
  obtain ⟨hsr,ht⟩ := validateConfigStream_ok hse
  obtain ⟨entries,rfl,hy⟩ := validateConfigEntries_ok hi
  obtain ⟨exits,rfl,hex⟩ := validateConfigExits_ok hx
  obtain ⟨jobs,-,rfl⟩ := map_ok hcn
  obtain ⟨hks,hk⟩ := validateConfigKV_ok hkv
  constructor
  · rintro (_ | _ | _ | _ | _)
    · exact hdb
    · exact hks
    · exact hsr
    · exact ho
    · exact hm
  · rintro (_ | _ | _ | _ | _)
    · exact hb
    · exact hk
    · exact ht
    · exact hn
    · exact hcs
  · intro e he hne
    obtain ⟨⟨e0,he0,hcr,-⟩,-⟩ := hy e he
    dsimp only at hne ⊢
    rw [hcr] at hne ⊢
    exact hco e0 he0 hne
  · intro e he hne
    obtain ⟨⟨e0,he0,-,hc1⟩,-⟩ := hy e he
    dsimp only at hne ⊢
    rw [hc1] at hne ⊢
    exact hcp e0 he0 hne
  · exact fun hne e he => (hy e he).2 hne
  · exact fun hne e he => hex e he hne
  · exact fun hl => (validateConfigRateLimit_ok hli hl).1
  · exact fun hl => (validateConfigRateLimit_ok hli hl).2

end

/-- In an accepted configuration the names of each list are distinct, and no
reference dangles exactly if those that the validators leave out are declared. -/
theorem accepted_references (host : Host) (content : Bytes) (cfg : ServiceConfig)
    (h : parseConfig host content = .ok cfg) :
    (∀ l, (cfg.names l).Nodup ∧ "" ∉ cfg.names l) ∧ (NoDangling cfg ↔ Unchecked cfg) := by
  obtain ⟨decrypted,-,h⟩ := bind_ok h
  have he : Checked cfg := by
    split at h
    · cases h
    · obtain ⟨loaded,-,h⟩ := bind_ok h
      exact checked_of_validateConfig h
  exact ⟨fun l => ⟨he.distinct l,he.named l⟩,noDangling_iff_unchecked he⟩

def plainHost (cfg : ServiceConfig) : Host where
  getenvBytes _ := []
  getenv _ := ""
  trySOPSDecrypt := .ok
  loadFromYamlBytes _ := .ok cfg
  atoi _ := none
  text _ := ""

def declaredConfig : ServiceConfig where
  server := { mode := "micro" }
  databases := [{ name := "main", url := "postgres://db", pool := some {} }]
  entry := [{ type := "rest", method := "GET", path := "/a", handler := "a", db := "main" }]

theorem accepted_references_sample :
    parseConfig (plainHost declaredConfig) [] = .ok declaredConfig ∧ NoDangling declaredConfig := by
  have ha : parseConfig (plainHost declaredConfig) [] = .ok declaredConfig := by decide
  refine ⟨ha,(accepted_references (plainHost declaredConfig) [] declaredConfig ha).2.mpr ?_⟩
  constructor
  all_goals simp [declaredConfig, ServiceConfig.Declares, EntryDef.brokers]

def danglingConfig : ServiceConfig where
  server := { mode := "micro", rateLimit := some { kv := "limits" } }
  entry :=
    [{ type := "crud", model := "Item", table := "items", resource := "items", path := "/items",
       db := "main", cache := "cache", eventStream := "bus" },
     { type := "async", path := "/jobs", handler := "job",
       asyncStore := some { driver := "redis", kv := "jobs" } }]
  exit :=
    [{ name := "worker", subscribe := ⟨"s","s","worker-worker"⟩, handler := "h", db := "log",
       eventStream := "events" }]
  sessionStore := some "sessions"

/-- References of each kind that is not looked up dangle. -/
theorem dangling_accepted :
    parseConfig (plainHost danglingConfig) [] = .ok danglingConfig ∧
      (∀ l, danglingConfig.names l = []) ∧
      danglingConfig.references.filter (fun r => decide (r.2 ≠ "")) =
        [(.databases,"main"),(.kv,"cache"),(.stream,"bus"),(.kv,"jobs"),(.databases,"log"),
          (.stream,"events"),(.kv,"limits"),(.kv,"sessions")] := by
  refine ⟨by decide,?_,by decide⟩
  rintro (_ | _ | _ | _ | _) <;> rfl

end SdkApi.ConfigReferences
