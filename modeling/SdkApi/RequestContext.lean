import SdkApi.HandlerChain
import SdkApi.GoStrings

/-!
# Requests, identities and the request-scoped context

The context carries the locals that the authentication chain reads and
writes. Its `trace` is not a value of the program: it records which
validators accepted the request and which role decisions allowed it, so that
statements about a chain can speak of what has been run.
-/

namespace SdkApi.RequestContext
open GoStrings

/-- `num` is a numeric date, in the unit of the clock. -/
inductive Claim where
  | str (s : String)
  | flag (b : Bool)
  | num (t : ℤ)
  | list (xs : List (Option String))
  | other
  deriving DecidableEq

abbrev MapClaims := List (String × Claim)

def stringOr (claims : MapClaims) (key : String) : String :=
  match claims.lookup key with
  | some (.str s) => s
  | _ => ""

def stringList (claims : MapClaims) (key : String) : List String :=
  match claims.lookup key with
  | some (.list xs) => xs.filterMap id
  | _ => []

structure AuthContext where
  userID : String
  orgID : String := ""
  roles : List String := []
  permissions : List String := []
  rawToken : String := ""
  claims : Option MapClaims := none
  deriving DecidableEq

def buildAuthContext (claims : MapClaims) (rawToken : String) : AuthContext where
  userID := stringOr claims "sub"
  orgID := stringOr claims "org_id"
  roles := stringList claims "roles"
  permissions := stringList claims "permissions"
  rawToken := rawToken
  claims := some claims

/-- Header names are in lower case; what is missing is the empty string. -/
structure Request where
  header : String → String
  cookies : List (String × String)
  query : String → String

def Request.get (r : Request) (key : String) : String := r.header (toLower key)

def Request.cookie (r : Request) (key : String) : String := (r.cookies.lookup key).getD ""

def Request.authorization (r : Request) : String := r.get "Authorization"

inductive Decider where
  | authValidator
  | openfga
  | keto
  deriving DecidableEq

inductive Event where
  | accepted (mode : String) (auth : Option AuthContext)
  | decided (by_ : Decider) (auth : AuthContext) (roles permissions : List String)

structure Ctx where
  req : Request
  authMode : String := ""
  auth : Option AuthContext := none
  claims : Option MapClaims := none
  tenant : Option (String × String) := none
  trace : List Event := []

structure Answer where
  status : ℕ
  message : String
  deriving DecidableEq

abbrev Outcome := HandlerChain.Outcome Ctx Answer
abbrev Handler := HandlerChain.Handler Ctx Answer

def next (c : Ctx) : Outcome := .next c

def respond (c : Ctx) (status : ℕ) (message : String) : Outcome := .stop c ⟨status,message⟩

@[simp] lemma next_eq (c d : Ctx) : next c = .next d ↔ c = d := by
  simp [next]

@[simp] lemma respond_ne (c d : Ctx) (status : ℕ) (message : String) :
    respond c status message = .next d ↔ False := by
  simp [respond]

def Ctx.note (c : Ctx) (e : Event) : Ctx := { c with trace := e::c.trace }

/-- `injectAuth` after the validator of `mode` has accepted the request. -/
def Ctx.inject (c : Ctx) (mode : String) (auth : AuthContext) : Ctx :=
  { c with auth := some auth, trace := .accepted mode (some auth)::c.trace }

/-- Some validator of `mode` has accepted the request. -/
def Accepted (mode : String) (c : Ctx) : Prop := ∃ auth, Event.accepted mode auth ∈ c.trace

def Decided (auth : AuthContext) (roles permissions : List String) (c : Ctx) : Prop :=
  ∃ d, Event.decided d auth roles permissions ∈ c.trace

section

variable (c : Ctx) (mode : String) (auth : AuthContext)

@[simp] lemma inject_req : (c.inject mode auth).req = c.req := rfl

@[simp] lemma inject_authMode : (c.inject mode auth).authMode = c.authMode := rfl

@[simp] lemma inject_auth : (c.inject mode auth).auth = some auth := rfl

end

variable (c : Ctx)

@[simp] lemma note_req (e : Event) : (c.note e).req = c.req := rfl

@[simp] lemma note_authMode (e : Event) : (c.note e).authMode = c.authMode := rfl

@[simp] lemma note_auth (e : Event) : (c.note e).auth = c.auth := rfl

/-- `d` is `c` after the validator of `mode` has accepted the request. -/
def Admitted (mode : String) (c d : Ctx) : Prop :=
  ∃ auth, d.auth = some auth ∧ d.trace = .accepted mode (some auth)::c.trace ∧
    d.req = c.req ∧ d.authMode = c.authMode ∧ (mode ≠ "jwt" → d.claims = c.claims)

lemma admitted_inject {mode : String} {auth : AuthContext} :
    Admitted mode c (c.inject mode auth) := ⟨auth,rfl,rfl,rfl,rfl,fun _ => rfl⟩

lemma Admitted.accepted {mode : String} {c d : Ctx} (h : Admitted mode c d) : Accepted mode d := by
  obtain ⟨auth,-,ht,-⟩ := h
  exact ⟨some auth,by simp [ht]⟩

end SdkApi.RequestContext
