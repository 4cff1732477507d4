import SdkApi.OAuthStore

/-!
# What a saved session is loaded as

A save that meets a row with its key overwrites the session data only, and for
the types other than OpenID the row is active again. What else the load returns
is that of the first save, or is not in the table at all.
-/

namespace SdkApi.SessionRoundTrip
open UniqueRows Timestamps OAuthStore

variable {S F : Type} (j : Json S F)

structure Save (S F : Type) where
  now : Instant
  signature : String
  stype : SessionType
  req : Requester S F

def Save.key (s : Save S F) : String × SessionType := (s.signature,s.stype)

def create (db : Database) (s : Save S F) : Database :=
  if s.stype = .oidc then (createOpenIDConnectSession j s.now s.signature s.req db).1
  else (saveSession j s.now s.signature s.stype s.req db).1

def load (now : Instant) (signature : String) (stype : SessionType) (db : Database) :
    Except StoreError (Requester S F) :=
  if stype = .oidc then getOpenIDConnectSession j signature db
  else loadSession j now signature stype db

/-- Columns that no later save overwrites have the values of the request. -/
structure Keeps (row : SessionRow) (req : Requester S F) : Prop where
  requestID : row.requestID = req.id
  clientID : row.clientID = req.client.id
  slices : scanned j row =
    some (req.requestedScope,req.grantedScope,req.requestedAudience,req.grantedAudience)
  form : loadedForm j row.form = req.form

/-- The values that are not stored for OpenID are zero. -/
structure Bare (req : Requester S F) : Prop where
  requestedAt : req.requestedAt = zeroTime
  requestedScope : req.requestedScope = none
  grantedScope : req.grantedScope = none
  requestedAudience : req.requestedAudience = none
  grantedAudience : req.grantedAudience = none
  form : req.form = j.nilForm

lemma Bare.eq {j : Json S F} {req : Requester S F} (h : Bare j req) :
    (⟨req.id,zeroTime,req.client,none,none,none,none,req.session,j.nilForm⟩ : Requester S F) =
      req := by
  obtain ⟨ht,hrs,hg,ha,hga,ho⟩ := h
  rw [← ht, ← ho]
  cases req with
  | mk id requestedAt client rs gs ra ga session form =>
    dsimp only at hrs hg ha hga
    rw [hrs, hg, ha, hga]

lemma kept_row (updates : List Column) (new : SessionRow) (old : Option SessionRow)
    (req : Requester S F) :
    Keeps j (old.elim new fun r => overwrite updates r new) req ↔ Keeps j (old.getD new) req := by
  cases old with
  | none => rfl
  | some r =>
    exact ⟨fun h => { h with },fun h => { h with }⟩

lemma renewed_row (new : SessionRow) (old : Option SessionRow) :
    (old.elim new fun r => overwrite [.sessionData,.active] r new).active = new.active ∧
    (old.elim new fun r => overwrite [.sessionData,.active] r new).sessionData =
      new.sessionData := by
  cases old with
  | none | some r => exact ⟨rfl,rfl⟩

def Restorable (now : Instant) (s : Save S F) (db : Database) : Prop :=
  getClient j db s.req.client.id = some s.req.client ∧
  loadedSession j (j.marshalSession s.req.session) = s.req.session ∧
  if s.stype = .oidc then
    Bare j s.req ∧
    ∀ old ∈ find sessionKey s.key db.sessions,
      old.requestID = s.req.id ∧ old.clientID = s.req.client.id ∧ old.active = true
  else
    now = s.req.requestedAt ∧
    Keeps j ((find sessionKey s.key db.sessions).getD
      (sessionRow j s.now s.signature s.stype s.req)) s.req

section

variable (updates : List Column) (row : SessionRow) (db : Database)

lemma find_insert_self :
    find sessionKey (sessionKey row) (insertSession updates row db).sessions =
      some ((find sessionKey (sessionKey row) db.sessions).elim row fun old =>
        overwrite updates old row) :=
  find_upsert_self (overwrite_key updates) row db.sessions

lemma find_insert_other {k : String × SessionType} (hk : k ≠ sessionKey row) :
    find sessionKey k (insertSession updates row db).sessions = find sessionKey k db.sessions :=
  find_upsert_other (overwrite_key updates) row db.sessions hk

end

lemma create_clients (db : Database) (s : Save S F) : (create j db s).clients = db.clients := by
  unfold create
  split_ifs <;> rfl

lemma find_create_other (db : Database) (s : Save S F) {k : String × SessionType} (hk : k ≠ s.key) :
    find sessionKey k (create j db s).sessions = find sessionKey k db.sessions := by
  unfold create
  split_ifs with ht
  · apply find_insert_other
    rwa [Save.key, ht] at hk
  · exact find_insert_other _ _ _ hk

lemma created_others (later : List (Save S F)) (k : String × SessionType) (db : Database)
    (h : ∀ l ∈ later, l.key ≠ k) :
    find sessionKey k (later.foldl (create j) db).sessions = find sessionKey k db.sessions ∧
      (later.foldl (create j) db).clients = db.clients := by
  induction later generalizing db with
  | nil => exact ⟨rfl,rfl⟩
  | cons l later ih =>
    obtain ⟨hi,hl⟩ := ih (create j db l) fun l' hl' => h l' (by simp [hl'])
    have hk : k ≠ l.key := (h l (by simp)).symm
    exact ⟨hi.trans (find_create_other j db l hk),hl.trans (create_clients j db l)⟩

lemma load_congr (now : Instant) {signature : String} {stype : SessionType} {db db' : Database}
    (hi : find sessionKey (signature,stype) db'.sessions =
      find sessionKey (signature,stype) db.sessions) (hl : db'.clients = db.clients) :
    load j now signature stype db' = load j now signature stype db := by
  unfold load
  split_ifs with ht
  · subst ht
    simp only [getOpenIDConnectSession, hi, getClient_congr j hl]
  · simp only [loadSession, hi, getClient_congr j hl]

section

variable (now : Instant) (signature : String) (stype : SessionType) {db : Database}
  {row : SessionRow} (req : Requester S F)

lemma loadSession_eq (hro : find sessionKey (signature,stype) db.sessions = some row) :
    loadSession j now signature stype db = .ok req ↔
      row.active ∧ now = req.requestedAt ∧ Keeps j row req ∧
        getClient j db req.client.id = some req.client ∧
        loadedSession j row.sessionData = req.session := by
  simp only [loadSession, hro]
  constructor
  · intro h
    split at h
    · cases h
    · rename_i rs gs ra ga hn
      split_ifs at h with ha
      split at h
      · cases h
      · rename_i client hl
        have hid := getClient_id j hl
        cases h
        exact ⟨by simpa using ha,rfl,⟨rfl,hid.symm,hn,rfl⟩,by rwa [hid],rfl⟩
  · rintro ⟨ha,ht,⟨hid,hi,hsl,ho⟩,hl,he⟩
    rw [← hi] at hl
    simp only [hsl, ha, hl, hid, ht, ho, he, Bool.true_eq_false, if_false]

lemma getOpenIDConnectSession_eq (ho : find sessionKey (signature,.oidc) db.sessions = some row) :
    getOpenIDConnectSession j signature db = .ok req ↔
      row.active ∧ row.requestID = req.id ∧ row.clientID = req.client.id ∧
        Bare j req ∧ getClient j db req.client.id = some req.client ∧
        loadedSession j row.sessionData = req.session := by
  simp only [getOpenIDConnectSession, ho]
  constructor
  · intro h
    split_ifs at h with ha
    split at h
    · cases h
    · rename_i client hl
      have hid := getClient_id j hl
      cases h
      exact ⟨by simpa using ha,rfl,hid.symm,⟨rfl,rfl,rfl,rfl,rfl,rfl⟩,by rwa [hid],rfl⟩
  · rintro ⟨ha,hid,hi,hb,hl,he⟩
    rw [← hi] at hl
    simp only [ha, hl, hid, he, Bool.true_eq_false, if_false]
    rw [hb.eq]

end

section

variable (now : Instant) (s : Save S F) (db : Database)

lemma load_saved (ht : s.stype ≠ .oidc) :
    load j now s.signature s.stype (create j db s) = .ok s.req ↔ Restorable j now s db := by
  have ho := find_insert_self [.sessionData,.active]
    (sessionRow j s.now s.signature s.stype s.req) db
  have hi : getClient j (insertSession [.sessionData,.active]
      (sessionRow j s.now s.signature s.stype s.req) db) = getClient j db := rfl
  rw [load, if_neg ht, create, if_neg ht, Restorable, if_neg ht]
  apply (loadSession_eq j now s.signature s.stype s.req ho).trans
  rw [hi, Save.key, kept_row]
  obtain ⟨ha,hda⟩ := renewed_row (sessionRow j s.now s.signature s.stype s.req)
    (find sessionKey (s.signature,s.stype) db.sessions)
  have hy : sessionKey (sessionRow j s.now s.signature s.stype s.req) = (s.signature,s.stype) := rfl
  rw [hy, ha, hda]
  constructor
  · rintro ⟨-,hm,hk,hl,he⟩
    exact ⟨hl,he,hm,hk⟩
  · rintro ⟨hl,he,hm,hk⟩
    exact ⟨rfl,hm,hk,hl,he⟩

lemma load_openid (ht : s.stype = .oidc) :
    load j now s.signature s.stype (create j db s) = .ok s.req ↔ Restorable j now s db := by
  have ho := find_insert_self [.sessionData] (oidcRow j s.now s.signature s.req) db
  have hn : getClient j (insertSession [.sessionData]
      (oidcRow j s.now s.signature s.req) db) = getClient j db := rfl
  rw [load, if_pos ht, create, if_pos ht, Restorable, if_pos ht, Save.key, ht]
  apply (getOpenIDConnectSession_eq j s.signature s.req ho).trans
  rw [hn]
  have hy : sessionKey (oidcRow j s.now s.signature s.req) = (s.signature,.oidc) := rfl
  rw [hy]
  cases hol : find sessionKey (s.signature,SessionType.oidc) db.sessions with
  | none =>
    rw [Option.elim_none]
    constructor
    · rintro ⟨-,-,-,hb,hl,he⟩
      exact ⟨hl,he,hb,by simp⟩
    · rintro ⟨hl,he,hb,-⟩
      exact ⟨rfl,rfl,rfl,hb,hl,he⟩
  | some old =>
    rw [Option.elim_some]
    constructor
    · rintro ⟨ha,hid,hi,hb,hl,he⟩
      refine ⟨hl,he,hb,?_⟩
      rintro old' ⟨⟩
      exact ⟨hid,hi,ha⟩
    · rintro ⟨hl,he,hb,hk⟩
      obtain ⟨hid,hi,ha⟩ := hk old rfl
      exact ⟨ha,hid,hi,hb,hl,he⟩

end

/-- The last save under a key is what a load returns exactly when the request
and the tables before it are as `Restorable` says. -/
theorem session_round_trip_iff (s : Save S F) (later : List (Save S F)) (db : Database)
    (now : Instant) (h : ∀ l ∈ later, l.key ≠ s.key) :
    load j now s.signature s.stype (later.foldl (create j) (create j db s)) = .ok s.req ↔
      Restorable j now s db := by
  obtain ⟨hi,hl⟩ := created_others j later s.key (create j db s) h
  rw [load_congr j now hi hl]
  by_cases ht : s.stype = .oidc
  · exact load_openid j now s db ht
  · exact load_saved j now s db ht

def portal : Client := ⟨"portal","",none,none,none,["read","write"],none,true⟩

def portalOnly : Database :=
  { emptyStore with clients := [⟨"portal","",none,none,none,"read write",none,true⟩] }

def access (signature requestID : String) (scopes : StringSlice) : Save String String where
  now := atNine
  signature := signature
  stype := .accessToken
  req := ⟨requestID,atNine,portal,scopes,scopes,none,some [],"alice","code=1"⟩

theorem first_save_loads :
    load plainJson atNine "s1" .accessToken
      (([access "s2" "r2" none].foldl (create plainJson))
        (create plainJson portalOnly (access "s1" "r1" (some ["read","write"])))) =
      .ok (access "s1" "r1" (some ["read","write"])).req :=
  (session_round_trip_iff plainJson (access "s1" "r1" (some ["read","write"]))
    [access "s2" "r2" none] portalOnly atNine (by decide)).mpr
    ⟨by decide,by decide,rfl,⟨rfl,rfl,by decide,by decide⟩⟩

/-- An hour later the request has another time, and under a signature that was
used before it has the scopes of the earlier request. -/
theorem second_save_loads_first :
    load plainJson (newYear 10 0 0 0) "s1" .accessToken
        (create plainJson portalOnly (access "s1" "r1" (some ["read"]))) =
      .ok { (access "s1" "r1" (some ["read"])).req with requestedAt := newYear 10 0 0 0 } ∧
    load plainJson atNine "s1" .accessToken
        (create plainJson (create plainJson portalOnly (access "s1" "r1" (some ["read","write"])))
          (access "s1" "r2" (some ["read"]))) =
      .ok (access "s1" "r1" (some ["read","write"])).req ∧
    (access "s1" "r1" (some ["read","write"])).req ≠ (access "s1" "r2" (some ["read"])).req := by
  decide

end SdkApi.SessionRoundTrip
