import SdkApi.CredentialMiddleware

/-!
# Role decisions and post-authentication limits

The handlers that run after a credential has been accepted. A decision that
allows an identity is recorded together with the lists it was taken for.
The relation and object of an OpenFGA check are never configured for an
entry, so that only its role and permission checks are here.
-/

namespace SdkApi.RoleMiddleware
open GoStrings RequestContext CredentialMiddleware

/-- The first error or the first positive answer ends the four checks. -/
def firstAllowed {ι : Type} (check : ι → Except String Bool) : List ι → Except String Bool
  | [] => .ok false
  | q::qs =>
    match check q with
    | .error e => .error e
    | .ok true => .ok true
    | .ok false => firstAllowed check qs

/-- The two halves of `resource:action`; other permissions are passed over. -/
def splitPermission (perm : String) : Option (String × String) :=
  match cut perm ':' with
  | (resource,action,true) => some (resource,action)
  | _ => none

def buildUserIdentifier (auth : AuthContext) : String :=
  if auth.orgID ≠ "" then "user:" ++ auth.orgID ++ ":" ++ auth.userID
  else "user:" ++ auth.userID

def hasAnyRole (auth : AuthContext) (required : List String) : Bool :=
  required.any (fun r => auth.roles.contains r)

def checkRolesViaFGA (client : Checker) (user : String) (roles : List String) : Except String Bool :=
  firstAllowed (fun role => client ⟨user,"member","role:" ++ role⟩) roles

def checkPermissionsViaFGA (client : Checker) (user : String) (permissions : List String) :
    Except String Bool :=
  firstAllowed (fun p => client ⟨user,"can_" ++ p.2,p.1 ++ ":" ++ p.2⟩)
    (permissions.filterMap splitPermission)

def checkOpenFGARoles (client : Checker) (user : String) (auth : AuthContext)
    (roles : List String) : Except String Bool :=
  if roles = [] then .ok true
  else if hasAnyRole auth roles then .ok true
  else checkRolesViaFGA client user roles

def checkOpenFGAPermissions (client : Checker) (user : String) (permissions : List String) :
    Except String Bool :=
  if permissions = [] then .ok true else checkPermissionsViaFGA client user permissions

def granted : Except String Bool → Bool
  | .ok b => b
  | .error _ => false

def openFGA (client : Checker) (roles permissions : List String) : Handler := fun c =>
  match c.auth with
  | none => respond c 401 "auth context required"
  | some auth =>
    let user := buildUserIdentifier auth
    if granted (checkOpenFGARoles client user auth roles) = false then
      respond c 403 "insufficient roles"
    else if granted (checkOpenFGAPermissions client user permissions) = false then
      respond c 403 "insufficient permissions"
    else next (c.note (.decided .openfga auth roles permissions))

def subjectID (auth : AuthContext) : String := "user:" ++ auth.userID

def checkRolesViaKeto (client : OryClient) (auth : AuthContext) (roles : List String) :
    Except String Bool :=
  firstAllowed (fun role => client.ketoCheck
    ⟨client.roleNamespace,role,client.roleRelation,subjectID auth⟩) roles

def checkPermissionsViaKeto (client : OryClient) (auth : AuthContext)
    (permissions : List String) : Except String Bool :=
  firstAllowed (fun p => client.ketoCheck ⟨p.1,p.2,client.permissionRelation,subjectID auth⟩)
    (permissions.filterMap splitPermission)

def ory (client : OryClient) (roles permissions : List String) : Handler := fun c =>
  match c.auth with
  | none => respond c 401 "auth context required"
  | some auth =>
    if roles ≠ [] ∧ granted (checkRolesViaKeto client auth roles) = false then
      respond c 403 "insufficient roles"
    else if permissions ≠ [] ∧ granted (checkPermissionsViaKeto client auth permissions) = false then
      respond c 403 "insufficient permissions"
    else next (c.note (.decided .keto auth roles permissions))

structure RateLimitEntry where
  requestsPerSecond : ℤ

/-- `allow` is the answer of the limiter that a scope keeps for an id. -/
structure RateLimitPostConfig where
  serverPerUser : Option RateLimitEntry := none
  serverPerKey : Option RateLimitEntry := none
  entryPerUser : Option RateLimitEntry := none
  entryPerKey : Option RateLimitEntry := none
  perRoleLimits : List (String × RateLimitEntry) := []
  maxFunc : Option (Ctx → ℤ) := none
  allow : String → String → Bool := fun _ _ => true

/-- The assertion to a plain map does not match the claims of a token. -/
def extractUserID (c : Ctx) : String := (c.auth.map AuthContext.userID).getD ""

def extractKeyID (c : Ctx) : String :=
  match c.auth with
  | some auth => if auth.rawToken = "" then auth.userID else ""
  | none => ""

def resolvePostEntry (entry : Option RateLimitEntry) (c : Ctx) (maxFunc : Option (Ctx → ℤ)) :
    Option RateLimitEntry :=
  entry.map fun e =>
    match maxFunc with
    | some f => if f c > 0 then ⟨f c⟩ else e
    | none => e

def checkPostLimit (cfg : RateLimitPostConfig) (c : Ctx) (entry : Option RateLimitEntry)
    (scope id : String) : Bool :=
  match resolvePostEntry entry c cfg.maxFunc with
  | none => false
  | some e => 0 < e.requestsPerSecond && id ≠ "" && !cfg.allow scope id

def checkRoleLimits (cfg : RateLimitPostConfig) (c : Ctx) : Bool :=
  match c.auth with
  | none => false
  | some auth => auth.roles.any fun role =>
    match cfg.perRoleLimits.lookup role with
    | some e => 0 < e.requestsPerSecond && !cfg.allow "role" role
    | none => false

def rateLimitPost (cfg : RateLimitPostConfig) : Handler := fun c =>
  if checkPostLimit cfg c cfg.serverPerUser "user" (extractUserID c)
      || checkPostLimit cfg c cfg.serverPerKey "key" (extractKeyID c)
      || checkRoleLimits cfg c
      || checkPostLimit cfg c cfg.entryPerUser "entry_user" (extractUserID c)
      || checkPostLimit cfg c cfg.entryPerKey "entry_key" (extractKeyID c) then
    respond c 429 "rate limit exceeded"
  else next c

lemma rateLimitPost_anonymous (cfg : RateLimitPostConfig) (c : Ctx) (h : c.auth = none) :
    rateLimitPost cfg c = next c := by
  have hp : ∀ entry scope, checkPostLimit cfg c entry scope "" = false := by
    intro entry scope
    cases he : resolvePostEntry entry c cfg.maxFunc <;> simp [checkPostLimit, he]
  have hu : extractUserID c = "" := by simp [extractUserID, h]
  have hk : extractKeyID c = "" := by simp [extractKeyID, h]
  have hr : checkRoleLimits cfg c = false := by simp [checkRoleLimits, h]
  simp [rateLimitPost, hu, hk, hr, hp]

lemma rateLimitPost_next {cfg : RateLimitPostConfig} {c d : Ctx}
    (h : rateLimitPost cfg c = .next d) : d = c := by
  rw [rateLimitPost] at h
  split at h
  · exact ((respond_ne c d 429 _).mp h).elim
  · exact ((next_eq c d).mp h).symm

lemma openFGA_next {client : Checker} {roles permissions : List String} {c d : Ctx}
    (h : openFGA client roles permissions c = .next d) :
    ∃ auth, c.auth = some auth ∧ d = c.note (.decided .openfga auth roles permissions) := by
  rw [openFGA] at h
  cases ha : c.auth with
  | none => simp [ha] at h
  | some auth =>
    refine ⟨auth,rfl,?_⟩
    simp only [ha] at h
    split_ifs at h <;> simp_all

lemma ory_next {client : OryClient} {roles permissions : List String} {c d : Ctx}
    (h : ory client roles permissions c = .next d) :
    ∃ auth, c.auth = some auth ∧ d = c.note (.decided .keto auth roles permissions) := by
  rw [ory] at h
  cases ha : c.auth with
  | none => simp [ha] at h
  | some auth =>
    refine ⟨auth,rfl,?_⟩
    simp only [ha] at h
    split_ifs at h <;> simp_all

end SdkApi.RoleMiddleware
