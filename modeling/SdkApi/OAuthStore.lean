import SdkApi.UniqueRows
import SdkApi.Timestamps
import Mathlib.Data.String.Basic
import Mathlib.Data.List.Sort

/-!
# The OAuth store

Clients, sessions and used assertion ids in three tables. Sessions of all
types share one table whose unique key is the signature and the type; the
unique keys are part of the database. Encoding to JSON and the order in which
the database returns rows that were created in the same second are parameters.
-/

namespace SdkApi.OAuthStore
open UniqueRows Timestamps Option

inductive SessionType where
  | authorizeCode
  | pkce
  | accessToken
  | refreshToken
  | oidc
  deriving DecidableEq

/-- A row of `oauth_sessions`; NULL is `none`. -/
structure SessionRow where
  signature : String
  type : SessionType
  requestID : String
  clientID : String
  requestedScopes : Option String := none
  grantedScopes : Option String := none
  requestedAudience : Option String := none
  grantedAudience : Option String := none
  sessionData : Option String
  form : Option String := none
  active : Bool
  createdAt : List Char

def sessionKey (r : SessionRow) : String × SessionType := (r.signature,r.type)

structure ClientRow where
  id : String
  hashedSecret : String
  redirectURIs : Option String
  grantTypes : Option String
  responseTypes : Option String
  scopes : String
  audience : Option String
  isPublic : Bool

structure JtiRow where
  jti : String
  expiresAt : List Char

structure Database where
  sessions : List SessionRow
  clients : List ClientRow
  jtis : List JtiRow
  sessionsUnique : KeysUnique sessionKey sessions
  jtisUnique : KeysUnique JtiRow.jti jtis

/-- A string slice; `none` is nil. -/
abbrev StringSlice := Option (List String)

structure Client where
  id : String
  secret : String
  redirectURIs : StringSlice
  grantTypes : StringSlice
  responseTypes : StringSlice
  scopes : List String
  audience : StringSlice
  isPublic : Bool
  deriving DecidableEq

structure Requester (S F : Type) where
  id : String
  requestedAt : Instant
  client : Client
  requestedScope : StringSlice
  grantedScope : StringSlice
  requestedAudience : StringSlice
  grantedAudience : StringSlice
  session : S
  form : F
  deriving DecidableEq

/-- An error of decoding a session or form is ignored, one of a slice is not. -/
structure Json (S F : Type) where
  marshalStrings : List String → String
  unmarshalStrings : String → Option StringSlice
  decodes : ∀ l, (unmarshalStrings (marshalStrings l)).isSome
  marshalSession : S → Option String
  unmarshalSession : String → S
  zeroSession : S
  marshalForm : F → Option String
  unmarshalForm : String → F
  nilForm : F

/-- The order of `ORDER BY created_at DESC`. -/
structure Engine where
  newestFirst : List SessionRow → List SessionRow
  perm : ∀ rows, (newestFirst rows).Perm rows
  sorted : ∀ rows, (newestFirst rows).Pairwise fun a b => ¬ a.createdAt < b.createdAt

inductive StoreError where
  | notFound
  | inactiveToken
  | jtiKnown
  | constraint
  deriving DecidableEq

/-- The fields between single spaces, without the empty ones. -/
def splitSpace (s : String) : List String :=
  ((s.toList.splitOnP (· = ' ')).filter (· ≠ [])).map String.ofList

section

variable {S F : Type} (j : Json S F)

/-- `StringSlice.Value`. -/
def value (s : StringSlice) : Option String := s.map j.marshalStrings

/-- `StringSlice.Scan`. -/
def scan (column : Option String) : Option StringSlice :=
  match column with
  | none => some none
  | some data => if data = "" then some none else j.unmarshalStrings data

def getClient (db : Database) (id : String) : Option Client := do
  let row ← db.clients.find? fun r => r.id = id
  let redirectURIs ← scan j row.redirectURIs
  let grantTypes ← scan j row.grantTypes
  let responseTypes ← scan j row.responseTypes
  let audience ← scan j row.audience
  return ⟨id,row.hashedSecret,redirectURIs,grantTypes,responseTypes,splitSpace row.scopes,audience,
    row.isPublic⟩

lemma getClient_congr {db db' : Database} (h : db'.clients = db.clients) (id : String) :
    getClient j db' id = getClient j db id := by
  simp only [getClient, h]

lemma getClient_id {db : Database} {id : String} {client : Client}
    (h : getClient j db id = some client) : client.id = id := by
  simp only [getClient, bind_eq_bind, bind_eq_some_iff, pure_def,
    some.injEq] at h
  obtain ⟨_,_,_,_,_,_,_,_,_,_,rfl⟩ := h
  rfl

inductive Column where
  | sessionData
  | active
  deriving DecidableEq

def overwrite (updates : List Column) (old new : SessionRow) : SessionRow :=
  { old with
    sessionData := if .sessionData ∈ updates then new.sessionData else old.sessionData
    active := if .active ∈ updates then new.active else old.active }

lemma overwrite_key (updates : List Column) (old new : SessionRow) :
    sessionKey (overwrite updates old new) = sessionKey old := rfl

def insertSession (updates : List Column) (row : SessionRow) (db : Database) : Database :=
  { db with
    sessions := upsert sessionKey (overwrite updates) row db.sessions
    sessionsUnique := unique_upsert (overwrite_key updates) row db.sessionsUnique }

def sessionRow (now : Instant) (signature : String) (stype : SessionType) (req : Requester S F) :
    SessionRow where
  signature := signature
  type := stype
  requestID := req.id
  clientID := req.client.id
  requestedScopes := value j req.requestedScope
  grantedScopes := value j req.grantedScope
  requestedAudience := value j req.requestedAudience
  grantedAudience := value j req.grantedAudience
  sessionData := j.marshalSession req.session
  form := j.marshalForm req.form
  active := true
  createdAt := now.text

def saveSession (now : Instant) (signature : String) (stype : SessionType) (req : Requester S F)
    (db : Database) : Database × Except StoreError Unit :=
  (insertSession [.sessionData,.active] (sessionRow j now signature stype req) db,.ok ())

def oidcRow (now : Instant) (signature : String) (req : Requester S F) : SessionRow where
  signature := signature
  type := .oidc
  requestID := req.id
  clientID := req.client.id
  sessionData := j.marshalSession req.session
  active := true
  createdAt := now.text

def createOpenIDConnectSession (now : Instant) (signature : String) (req : Requester S F)
    (db : Database) : Database × Except StoreError Unit :=
  (insertSession [.sessionData] (oidcRow j now signature req) db,.ok ())

def loadedSession (data : Option String) : S :=
  match data with
  | none => j.zeroSession
  | some d => if d = "" then j.zeroSession else j.unmarshalSession d

def loadedForm (data : Option String) : F :=
  match data with
  | none => j.nilForm
  | some d => if d = "" then j.nilForm else j.unmarshalForm d

/-- The columns of a row as `Scan` delivers them. -/
def scanned (row : SessionRow) : Option (StringSlice × StringSlice × StringSlice × StringSlice) := do
  let requestedScope ← scan j row.requestedScopes
  let grantedScope ← scan j row.grantedScopes
  let requestedAudience ← scan j row.requestedAudience
  let grantedAudience ← scan j row.grantedAudience
  return (requestedScope,grantedScope,requestedAudience,grantedAudience)

def loadSession (now : Instant) (signature : String) (stype : SessionType) (db : Database) :
    Except StoreError (Requester S F) :=
  match find sessionKey (signature,stype) db.sessions with
  | none => .error .notFound
  | some row =>
    match scanned j row with
    | none => .error .notFound
    | some (requestedScope,grantedScope,requestedAudience,grantedAudience) =>
      if row.active = false then .error .inactiveToken
      else
        match getClient j db row.clientID with
        | none => .error .notFound
        | some client => .ok ⟨row.requestID,now,client,requestedScope,grantedScope,
            requestedAudience,grantedAudience,loadedSession j row.sessionData,
            loadedForm j row.form⟩

/-- The zero `time.Time`. -/
def zeroTime : Instant where
  year := 1
  month := 1
  day := 1
  hour := 0
  minute := 0
  second := 0
  nano := 0

def getOpenIDConnectSession (signature : String) (db : Database) :
    Except StoreError (Requester S F) :=
  match find sessionKey (signature,.oidc) db.sessions with
  | none => .error .notFound
  | some row =>
    if row.active = false then .error .notFound
    else
      match getClient j db row.clientID with
      | none => .error .notFound
      | some client => .ok ⟨row.requestID,zeroTime,client,none,none,none,none,
          loadedSession j row.sessionData,j.nilForm⟩

def createRefreshTokenSession (now : Instant) (signature : String) (req : Requester S F)
    (db : Database) : Database × Except StoreError Unit :=
  saveSession j now signature .refreshToken req db

def getRefreshTokenSession (now : Instant) (signature : String) (db : Database) :
    Except StoreError (Requester S F) := loadSession j now signature .refreshToken db

end

def SessionRow.inactive (r : SessionRow) : SessionRow := { r with active := false }

/-- `UPDATE oauth_sessions SET active = false` for some of the rows. -/
def deactivate (p : SessionRow → Bool) (db : Database) : Database :=
  { db with
    sessions := db.sessions.map fun r => if p r then r.inactive else r
    sessionsUnique := (unique_map (fun r => by split_ifs <;> rfl) db.sessions).mpr
      db.sessionsUnique }

def refreshTokenOf (requestID : String) (r : SessionRow) : Bool :=
  r.requestID = requestID && r.type = .refreshToken

/-- It stays empty without a row. -/
def activeSignature (e : Engine) (requestID : String) (db : Database) : String :=
  ((e.newestFirst (db.sessions.filter fun r => refreshTokenOf requestID r && r.active)).head?.map
    SessionRow.signature).getD ""

def resign (requestID signature : String) (db : Database) : Database × Except StoreError Unit :=
  match h : update sessionKey (refreshTokenOf requestID) (fun r => { r with signature := signature })
      db.sessions with
  | none => (db,.error .constraint)
  | some rows => ({ db with sessions := rows, sessionsUnique := unique_update h },.ok ())

def rotateRefreshToken (e : Engine) (requestID signature : String) (db : Database) :
    Database × Except StoreError Unit :=
  let oldSig := activeSignature e requestID db
  resign requestID signature
    (if oldSig ≠ "" then deactivate (fun r => r.signature = oldSig) db else db)

def invalidateAuthorizeCodeSession (code : String) (db : Database) : Database :=
  deactivate (fun r => r.signature = code && r.type = .authorizeCode) db

def revokeRefreshToken (requestID : String) (db : Database) : Database :=
  deactivate (refreshTokenOf requestID) db

def revokeAccessToken (requestID : String) (db : Database) : Database :=
  deactivate (fun r => r.requestID = requestID && r.type = .accessToken) db

def deleteSession (signature : String) (stype : SessionType) (db : Database) : Database :=
  { db with
    sessions := db.sessions.filter fun r => !(r.signature = signature && r.type = stype)
    sessionsUnique := db.sessionsUnique.sublist (List.filter_sublist.map sessionKey) }

/-- A failed query leaves `exists` false. -/
def clientAssertionJWTValid (now : Instant) (failed : Bool) (jti : String) (db : Database) :
    Except StoreError Unit :=
  if failed = false ∧ (db.jtis.any fun r => r.jti = jti && now.text < r.expiresAt) then
    .error .jtiKnown
  else .ok ()

/-- The conflict clause has no columns: an id that is there keeps its row. -/
def setClientAssertionJWT (jti : String) (exp : Instant) (db : Database) :
    Database × Except StoreError Unit :=
  ({ db with
    jtis := upsert JtiRow.jti (fun old _ => old) ⟨jti,exp.text⟩ db.jtis
    jtisUnique := unique_upsert (fun _ _ => rfl) _ db.jtisUnique },.ok ())

inductive Call (S F : Type) where
  | saveSession (now : Instant) (signature : String) (stype : SessionType) (req : Requester S F)
  | createOpenIDConnectSession (now : Instant) (signature : String) (req : Requester S F)
  | rotateRefreshToken (requestID signature : String)
  | invalidateAuthorizeCodeSession (code : String)
  | revokeRefreshToken (requestID : String)
  | revokeAccessToken (requestID : String)
  | deleteSession (signature : String) (stype : SessionType)
  | setClientAssertionJWT (jti : String) (exp : Instant)

def perform {S F : Type} (e : Engine) (j : Json S F) (db : Database) : Call S F → Database
  | .saveSession now signature stype req => (saveSession j now signature stype req db).1
  | .createOpenIDConnectSession now signature req =>
    (createOpenIDConnectSession j now signature req db).1
  | .rotateRefreshToken requestID signature => (rotateRefreshToken e requestID signature db).1
  | .invalidateAuthorizeCodeSession code => invalidateAuthorizeCodeSession code db
  | .revokeRefreshToken requestID => revokeRefreshToken requestID db
  | .revokeAccessToken requestID => revokeAccessToken requestID db
  | .deleteSession signature stype => deleteSession signature stype db
  | .setClientAssertionJWT jti exp => (setClientAssertionJWT jti exp db).1

def emptyStore : Database where
  sessions := []
  clients := []
  jtis := []
  sessionsUnique := by decide
  jtisUnique := by decide

def newYear (hour : Fin 24) (minute second : Fin 60) (nano : Fin 1000000000) : Instant where
  year := 2026
  month := 1
  day := 1
  hour := hour
  minute := minute
  second := second
  nano := nano
  hour_lt := hour.isLt
  minute_lt := minute.isLt
  second_lt := second.isLt
  nano_lt := nano.isLt

def secondsPastNine (second : Fin 60) : Instant := newYear 9 0 second 0

def atNine : Instant := newYear 9 0 0 0

/-- Among rows of the same second the older one comes first. -/
def stableEngine : Engine where
  newestFirst rows := rows.insertionSort fun a b => ¬ a.createdAt < b.createdAt
  perm rows := List.perm_insertionSort _ rows
  sorted rows := by
    have htotal : Std.Total fun a b : SessionRow => ¬ a.createdAt < b.createdAt :=
      ⟨fun a b => by simpa only [not_lt] using le_total b.createdAt a.createdAt⟩
    have htrans : IsTrans SessionRow fun a b => ¬ a.createdAt < b.createdAt :=
      ⟨fun a b c hab hbc => not_lt.mpr ((not_lt.mp hbc).trans (not_lt.mp hab))⟩
    exact List.pairwise_insertionSort _ rows

def quoted (s : String) : String := "\""++s++"\""

def unquoted (s : List Char) : String := String.ofList s.tail.dropLast

def plainJson : Json String String where
  marshalStrings l := "["++",".intercalate (l.map quoted)++"]"
  unmarshalStrings data :=
    some (some (((data.toList.tail.dropLast.splitOnP (· = ',')).filter (· ≠ [])).map unquoted))
  decodes _ := rfl
  marshalSession s := some (quoted s)
  unmarshalSession data := unquoted data.toList
  zeroSession := ""
  marshalForm s := some (quoted s)
  unmarshalForm data := unquoted data.toList
  nilForm := ""

end SdkApi.OAuthStore
