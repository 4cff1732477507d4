import SdkApi.OAuthStore

/-!
# Chains of refresh tokens

A rotation deactivates the newest active refresh token of a request and then
gives every refresh token of the request the signature it was called with. As
long as there is one such token this changes nothing; the second rotation of a
chain finds two and would give both the same key.
-/

namespace SdkApi.RefreshRotation
open UniqueRows Timestamps OAuthStore List Option

variable {S F : Type}

structure Issue (S F : Type) where
  now : Instant
  signature : String
  req : Requester S F

def succeeded (r : Database × Except StoreError Unit) : Option Database :=
  match r.2 with
  | .ok () => some r.1
  | .error _ => none

def rotations (e : Engine) (j : Json S F) (requestID : String) :
    String → List (Issue S F) → Database → Option Database
  | _, [], db => some db
  | current, i::rest, db => do
    let db ← succeeded (rotateRefreshToken e requestID current db)
    let db ← succeeded (createRefreshTokenSession j i.now i.signature i.req db)
    rotations e j requestID i.signature rest db

def chain (e : Engine) (j : Json S F) (requestID : String) (first : Issue S F)
    (rest : List (Issue S F)) (db : Database) : Option Database := do
  let db ← succeeded (createRefreshTokenSession j first.now first.signature first.req db)
  rotations e j requestID first.signature rest db

def ChainHolds (e : Engine) (j : Json S F) (requestID : String) (first : Issue S F)
    (rest : List (Issue S F)) (db : Database) : Prop :=
  ∃ db', chain e j requestID first rest db = some db' ∧
    (∀ i ∈ (first::rest).getLast?, ∀ now, ∃ req,
      getRefreshTokenSession j now i.signature db' = .ok req) ∧
    ∀ i ∈ (first::rest).dropLast, ∀ now,
      getRefreshTokenSession j now i.signature db' = .error .inactiveToken

/-- No refresh token of the request is in the database. -/
def NewRequest (requestID : String) (db : Database) : Prop :=
  ∀ r ∈ db.sessions, refreshTokenOf requestID r = false

instance (requestID : String) (db : Database) : Decidable (NewRequest requestID db) :=
  inferInstanceAs (Decidable (∀ r ∈ db.sessions, refreshTokenOf requestID r = false))

structure Fresh (requestID : String) (issues : List (Issue S F)) (db : Database) : Prop where
  issued : ∀ i ∈ issues, i.req.id = requestID
  signatures : ∀ i ∈ issues, ∀ r ∈ db.sessions, sessionKey r ≠ (i.signature,.refreshToken)
  distinct : (issues.map Issue.signature).Nodup

section

variable (e : Engine) (j : Json S F) {requestID : String}

lemma insert_fresh {updates : List Column} {row : SessionRow} (db : Database)
    (h : ∀ r ∈ db.sessions, sessionKey r ≠ sessionKey row) :
    (insertSession updates row db).sessions = db.sessions++[row] := by
  have hn : find sessionKey (sessionKey row) db.sessions = none := find_none_iff.mpr h
  show upsert sessionKey (overwrite updates) row db.sessions = _
  rw [upsert, hn]
  rfl

variable (signature : String) {before between after : List SessionRow} {a b : SessionRow}

lemma resign_two (db : Database) (hdb : db.sessions = before++a::(between++b::after))
    (ha : refreshTokenOf requestID a) (hb : refreshTokenOf requestID b) :
    resign requestID signature db = (db,.error .constraint) := by
  have hne : update sessionKey (refreshTokenOf requestID)
      (fun r => { r with signature := signature }) db.sessions = none := by
    have ht : ∀ r, refreshTokenOf requestID r → r.type = .refreshToken := by
      intro r hr
      simp only [refreshTokenOf, Bool.and_eq_true, decide_eq_true_eq] at hr
      exact hr.2
    apply if_neg
    rw [hdb, KeysUnique]
    simp only [map_append, map_cons, ha, hb, if_true]
    intro hn
    have he := (nodup_append.mp hn).2.1
    rw [nodup_cons] at he
    apply he.1
    simp [sessionKey, ht a ha, ht b hb]
  unfold resign
  split
  · rfl
  · rename_i rows ho
    rw [hne] at ho
    cases ho

lemma resign_same (db : Database)
    (h : ∀ r ∈ db.sessions, refreshTokenOf requestID r → r.signature = signature) :
    resign requestID signature db = (db,.ok ()) := by
  have hm : (db.sessions.map fun r =>
      if refreshTokenOf requestID r then { r with signature := signature } else r) = db.sessions := by
    apply map_congr_left _ |>.trans (map_id _)
    intro r hr
    split_ifs with hp
    · rw [← h r hr hp]
      rfl
    · rfl
  have ho : update sessionKey (refreshTokenOf requestID)
      (fun r => { r with signature := signature }) db.sessions = some db.sessions := by
    simp only [update, hm]
    exact if_pos db.sessionsUnique
  unfold resign
  split
  · rename_i hn
    rw [ho] at hn
    cases hn
  · rename_i rows hro
    obtain rfl : db.sessions = rows := some.inj (ho.symm.trans hro)
    rfl

section

variable (db : Database) {before : List SessionRow} {row : SessionRow}
  (hdb : db.sessions = before++[row]) (hb : ∀ r ∈ before, refreshTokenOf requestID r = false)
  (hr : refreshTokenOf requestID row) (ha : row.active)
include hdb hb hr ha

lemma activeSignature_single : activeSignature e requestID db = row.signature := by
  have hn : before.filter (fun r => refreshTokenOf requestID r && r.active) = [] := by
    rw [filter_eq_nil_iff]
    intro r hr
    simp [hb r hr]
  have hi : db.sessions.filter (fun r => refreshTokenOf requestID r && r.active) = [row] := by
    rw [hdb, filter_append, hn]
    simp [hr, ha]
  have ho := e.perm [row]
  rw [perm_singleton] at ho
  simp [activeSignature, hi, ho]

lemma rotate_single :
    rotateRefreshToken e requestID row.signature db =
      (if row.signature ≠ "" then deactivate (fun r => r.signature = row.signature) db else db,
        .ok ()) := by
  unfold rotateRefreshToken
  rw [activeSignature_single e db hdb hb hr ha]
  apply resign_same
  intro r he hp
  -- every refresh token of the request has the signature of the one row
  have ho : ∀ r ∈ db.sessions, refreshTokenOf requestID r → r.signature = row.signature := by
    intro r he hp
    rw [hdb, mem_append, mem_singleton] at he
    rcases he with he | rfl
    · simp [hb r he] at hp
    · rfl
  split_ifs at he with hs
  · obtain ⟨r',hr',rfl⟩ := mem_map.mp he
    have hm : refreshTokenOf requestID r' := by
      split_ifs at hp
      · exact hp
      · exact hp
    split_ifs
    · exact ho r' hr' hm
    · exact ho r' hr' hm
  · exact ho r he hp

end

lemma refreshTokenOf_inactive (p : SessionRow → Bool) (r : SessionRow) :
    refreshTokenOf requestID (if p r then r.inactive else r) = refreshTokenOf requestID r := by
  split_ifs <;> rfl

lemma rotate_two {db : Database} (hdb : db.sessions = before++a::(between++b::after))
    (ha : refreshTokenOf requestID a) (hb : refreshTokenOf requestID b) :
    (rotateRefreshToken e requestID signature db).2 = .error .constraint := by
  simp only [rotateRefreshToken]
  by_cases hi : activeSignature e requestID db = ""
  · rw [if_neg (not_not.mpr hi), resign_two signature db hdb ha hb]
  · rw [if_pos hi]
    have ho : (deactivate (fun r => r.signature = activeSignature e requestID db) db).sessions =
        db.sessions.map fun r =>
          if r.signature = activeSignature e requestID db then r.inactive else r := by
      simp [deactivate]
    rw [hdb] at ho
    simp only [map_append, map_cons] at ho
    have hk := @refreshTokenOf_inactive requestID
      fun r => r.signature = activeSignature e requestID db
    simp only [decide_eq_true_eq] at hk
    rw [resign_two signature _ ho ((hk a).trans ha) ((hk b).trans hb)]

end

section

variable (j : Json S F)

lemma scan_value (s : StringSlice) : (scan j (value j s)).isSome := by
  cases s with
  | none => rfl
  | some l =>
    simp only [value, map_some, scan]
    split_ifs
    · rfl
    · exact j.decodes l

def issued (i : Issue S F) : SessionRow := sessionRow j i.now i.signature .refreshToken i.req

/-- A token that has been rotated away; an empty signature is not looked for. -/
def retired (i : Issue S F) : SessionRow :=
  if i.signature ≠ "" then (issued j i).inactive else issued j i

variable (i : Issue S F)

lemma scanned_issued : ∃ v, scanned j (issued j i) = some v := by
  obtain ⟨a,ha⟩ := isSome_iff_exists.mp (scan_value j i.req.requestedScope)
  obtain ⟨b,hb⟩ := isSome_iff_exists.mp (scan_value j i.req.grantedScope)
  obtain ⟨c,hc⟩ := isSome_iff_exists.mp (scan_value j i.req.requestedAudience)
  obtain ⟨d,hd⟩ := isSome_iff_exists.mp (scan_value j i.req.grantedAudience)
  exact ⟨(a,b,c,d),by simp [scanned, issued, sessionRow, ha, hb, hc, hd]⟩

lemma load_inactive (db : Database) (now : Instant)
    (hf : find sessionKey (i.signature,.refreshToken) db.sessions = some (issued j i).inactive) :
    getRefreshTokenSession j now i.signature db = .error .inactiveToken := by
  obtain ⟨v,hv⟩ := scanned_issued j i
  have hv' : scanned j (issued j i).inactive = some v := hv
  have ht : (issued j i).inactive.active = false := rfl
  simp only [getRefreshTokenSession, loadSession, hf, hv', ht, if_true]

lemma load_active {db : Database} (now : Instant)
    (hf : find sessionKey (i.signature,.refreshToken) db.sessions = some (issued j i)) :
    (∃ req, getRefreshTokenSession j now i.signature db = .ok req) ↔
      (getClient j db i.req.client.id).isSome := by
  obtain ⟨v,hv⟩ := scanned_issued j i
  have hi : (issued j i).clientID = i.req.client.id := rfl
  have ht : (issued j i).active := rfl
  simp only [getRefreshTokenSession, loadSession, hf, hv, hi, ht]
  cases hc : getClient j db i.req.client.id with
  | none => simp
  | some client => simp

end

section

variable (e : Engine) (j : Json S F) {requestID : String}
variable {db : Database} {rest : List (Issue S F)} {first second : Issue S F}
  {issues : List (Issue S F)} {rows : List SessionRow} {i : Issue S F}

lemma issued_refresh (h : Fresh requestID issues db)
    (hi : i ∈ issues) : refreshTokenOf requestID (issued j i) := by
  simp [refreshTokenOf, issued, sessionRow, h.issued i hi]

lemma create_first {first : Issue S F} (h : Fresh requestID (first::rest) db) :
    (createRefreshTokenSession j first.now first.signature first.req db).1.sessions =
      db.sessions++[issued j first] :=
  insert_fresh db (h.signatures first (by simp))

lemma find_last {row : SessionRow} (h : ∀ r ∈ rows, sessionKey r ≠ sessionKey row) :
    find sessionKey (sessionKey row) (rows++[row]) = some row := by
  rw [find_append, find_none_iff.mpr h]
  simp [find]

lemma retired_key (i : Issue S F) : sessionKey (retired j i) = (i.signature,.refreshToken) := by
  unfold retired
  split_ifs <;> rfl

lemma deactivated_keys (rows : List SessionRow) (p : SessionRow → Bool) :
    (rows.map fun r => if p r then r.inactive else r).map sessionKey = rows.map sessionKey := by
  rw [List.map_map]
  apply map_congr_left
  intro r _
  simp only [Function.comp_apply]
  split_ifs <;> rfl

lemma rotate_first {first : Issue S F} {db db1 : Database} (h : Fresh requestID (first::rest) db)
    (hn : NewRequest requestID db) (hs : db1.sessions = db.sessions++[issued j first]) :
    ∃ db2 rows, rotateRefreshToken e requestID first.signature db1 = (db2,.ok ()) ∧
      db2.sessions = rows++[retired j first] ∧ db2.clients = db1.clients ∧
      rows.map sessionKey = db.sessions.map sessionKey := by
  have ho := rotate_single e db1 hs hn (issued_refresh j h (by simp)) rfl
  by_cases he : first.signature = ""
  · have hk : (issued j first).signature = "" := he
    rw [hk, ← he] at ho
    simp only [he, ne_eq, not_true_eq_false, if_false] at ho
    refine ⟨db1,db.sessions,by rw [he]; exact ho,?_,rfl,rfl⟩
    simp [hs, retired, he]
  · have hi : (issued j first).signature = first.signature := rfl
    rw [hi, if_pos he] at ho
    refine ⟨_,_,ho,?_,rfl,deactivated_keys db.sessions fun r => r.signature = first.signature⟩
    simp [deactivate, hs, retired, he, hi]

lemma create_second {db db2 : Database} (h : Fresh requestID (first::second::rest) db)
    (hs : db2.sessions = rows++[retired j first])
    (hy : rows.map sessionKey = db.sessions.map sessionKey) :
    (createRefreshTokenSession j second.now second.signature second.req db2).1.sessions =
      rows++[retired j first]++[issued j second] ∧
    (∀ r ∈ rows, sessionKey r ≠ (first.signature,.refreshToken)) ∧
    ∀ r ∈ rows++[retired j first], sessionKey r ≠ sessionKey (issued j second) := by
  have he : ∀ i ∈ first::second::rest, ∀ r ∈ rows, sessionKey r ≠ (i.signature,.refreshToken) := by
    intro i hi r hr
    have hm : sessionKey r ∈ db.sessions.map sessionKey := hy ▸ mem_map_of_mem hr
    obtain ⟨r',hr',hk⟩ := mem_map.mp hm
    exact hk ▸ h.signatures i hi r' hr'
  have hn : first.signature ≠ second.signature := by
    have hd := h.distinct
    simp only [map_cons, nodup_cons, mem_cons, not_or] at hd
    exact hd.1.1
  have hl : ∀ r ∈ rows++[retired j first], sessionKey r ≠ sessionKey (issued j second) := by
    intro r hr
    rw [mem_append, mem_singleton] at hr
    rcases hr with hr | rfl
    · exact he second (by simp) r hr
    · rw [retired_key]
      show (first.signature,SessionType.refreshToken) ≠ (second.signature,.refreshToken)
      simp [hn]
  refine ⟨?_,he first (by simp),hl⟩
  rw [← hs]
  exact insert_fresh db2 (hs ▸ hl)

lemma retired_refresh (h : Fresh requestID issues db)
    (hi : i ∈ issues) : refreshTokenOf requestID (retired j i) := by
  unfold retired
  split_ifs
  · exact issued_refresh j h hi
  · exact issued_refresh j h hi

lemma chain_cons (h : Fresh requestID (first::second::rest) db) (hn : NewRequest requestID db) :
    ∃ db3 rows, chain e j requestID first (second::rest) db =
        rotations e j requestID second.signature rest db3 ∧
      db3.sessions = rows++[retired j first]++[issued j second] ∧ db3.clients = db.clients ∧
      (∀ r ∈ rows, sessionKey r ≠ (first.signature,.refreshToken)) ∧
      ∀ r ∈ rows++[retired j first], sessionKey r ≠ sessionKey (issued j second) := by
  obtain ⟨db2,rows,ho,hs2,hc2,hk⟩ := rotate_first e j h hn (create_first j h)
  obtain ⟨hs3,hol,hl⟩ := create_second j h hs2 hk
  refine ⟨_,rows,?_,hs3,hc2,hol,hl⟩
  show (succeeded (rotateRefreshToken e requestID first.signature _)).bind _ = _
  rw [ho]
  rfl

lemma single_holds_iff {first : Issue S F} (h : Fresh requestID [first] db) :
    ChainHolds e j requestID first [] db ↔ (getClient j db first.req.client.id).isSome := by
  have hk : ∀ r ∈ db.sessions, sessionKey r ≠ sessionKey (issued j first) :=
    h.signatures first (by simp)
  have hn := find_last hk
  rw [← create_first j h] at hn
  have hl := fun now => load_active j first now hn
  constructor
  · rintro ⟨db',hd',he,-⟩
    obtain rfl := some.inj hd'
    exact (hl first.now).mp (he first (by simp) first.now)
  · intro hc
    refine ⟨_,rfl,?_,by simp⟩
    intro i hi now
    obtain rfl : first = i := by simpa using hi
    exact (hl now).mpr hc

lemma pair_holds_iff (h : Fresh requestID [first,second] db) (hnw : NewRequest requestID db) :
    ChainHolds e j requestID first [second] db ↔
      first.signature ≠ "" ∧ (getClient j db second.req.client.id).isSome := by
  obtain ⟨db3,rows,hch,hs3,hc3,hol,hla⟩ := chain_cons e j h hnw
  have ho : find sessionKey (second.signature,.refreshToken) db3.sessions =
      some (issued j second) := by
    rw [hs3]
    exact find_last hla
  have ht : find sessionKey (first.signature,.refreshToken) db3.sessions =
      some (retired j first) := by
    rw [← retired_key j first] at hol ⊢
    rw [hs3, find_append, find_last hol]
    rfl
  have hl := fun now => load_active j second now ho
  rw [getClient_congr j hc3] at hl
  unfold ChainHolds
  rw [hch]
  constructor
  · rintro ⟨db',hd',hne,holder⟩
    obtain rfl := some.inj hd'
    refine ⟨fun he => ?_,(hl second.now).mp (hne second (by simp) second.now)⟩
    -- a token without a signature has not been deactivated
    have hro : retired j first = issued j first := by simp [retired, he]
    rw [hro] at ht
    have hn := holder first (by simp) first.now
    obtain ⟨v,hv⟩ := scanned_issued j first
    have ha : (issued j first).active := rfl
    simp only [getRefreshTokenSession, loadSession, ht, hv, ha, Bool.true_eq_false, if_false] at hn
    split at hn <;> cases hn
  · rintro ⟨he,hc⟩
    refine ⟨db3,rfl,?_,?_⟩
    · intro i hi now
      obtain rfl : second = i := by simpa using hi
      exact (hl now).mpr hc
    · intro i hi now
      obtain rfl : i = first := by simpa using hi
      have hro : retired j i = (issued j i).inactive := if_pos he
      exact load_inactive j i db3 now (hro ▸ ht)

lemma known_fails (h : Fresh requestID (first::second::rest) db) (ho : ¬ NewRequest requestID db) :
    ¬ ChainHolds e j requestID first (second::rest) db := by
  obtain ⟨r,hr,he⟩ : ∃ r ∈ db.sessions, refreshTokenOf requestID r := by
    simpa [NewRequest] using ho
  obtain ⟨before,after,hl⟩ := append_of_mem hr
  have hs : (createRefreshTokenSession j first.now first.signature first.req db).1.sessions =
      before++r::(after++issued j first::[]) := by
    rw [create_first j h, hl]
    simp
  have hi := rotate_two e first.signature hs he (issued_refresh j h (by simp))
  rintro ⟨db',hd',-⟩
  change (succeeded (rotateRefreshToken e requestID first.signature _)).bind _ = _ at hd'
  rw [succeeded, hi] at hd'
  cases hd'

lemma longer_fails {first second third : Issue S F}
    (h : Fresh requestID (first::second::third::rest) db) (hn : NewRequest requestID db) :
    ¬ ChainHolds e j requestID first (second::third::rest) db := by
  obtain ⟨db3,rows,hi,hs3,-⟩ := chain_cons e j h hn
  have hs' : db3.sessions = rows++retired j first::([]++issued j second::[]) := by simp [hs3]
  have hl := rotate_two e second.signature hs'
    (retired_refresh j h (by simp)) (issued_refresh j h (by simp))
  rintro ⟨db',hd',-⟩
  rw [hi, rotations, succeeded, hl] at hd'
  cases hd'

end

/-- A chain holds exactly when it is rotated at most once, what is rotated has
a signature and is the only refresh token of its request, and the client of
the newest token is registered. -/
theorem chain_holds_iff (e : Engine) (j : Json S F) (requestID : String) (first : Issue S F)
    (rest : List (Issue S F)) (db : Database) (h : Fresh requestID (first::rest) db) :
    ChainHolds e j requestID first rest db ↔
      rest.length ≤ 1 ∧ (rest ≠ [] → first.signature ≠ "" ∧ NewRequest requestID db) ∧
        ∀ i ∈ (first::rest).getLast?, (getClient j db i.req.client.id).isSome := by
  cases rest with
  | nil =>
    rw [single_holds_iff e j h]
    simp
  | cons second rest =>
    by_cases hn : NewRequest requestID db
    · cases rest with
      | nil =>
        rw [pair_holds_iff e j h hn]
        simp [hn]
      | cons third rest =>
        apply iff_of_false (longer_fails e j h hn)
        rintro ⟨hl,-⟩
        simp at hl
    · apply iff_of_false (known_fails e j h hn)
      rintro ⟨-,ho,-⟩
      exact hn (ho (by simp)).2

def registered : Database :=
  { emptyStore with clients := [⟨"app","",none,none,none,"offline",none,true⟩] }

def appClient : Client := ⟨"app","",none,none,none,["offline"],none,true⟩

def token (signature : String) (second : Fin 60) : Issue String String where
  now := secondsPastNine second
  signature := signature
  req := ⟨"r",zeroTime,appClient,none,none,none,none,"alice",""⟩

lemma fresh_registered {issues : List (Issue String String)} (hi : ∀ i ∈ issues, i.req.id = "r")
    (hd : (issues.map Issue.signature).Nodup) : Fresh "r" issues registered where
  issued := hi
  signatures := by simp [registered, emptyStore]
  distinct := hd

theorem one_rotation_holds :
    ChainHolds stableEngine plainJson "r" (token "s0" 0) [token "s1" 10] registered :=
  (chain_holds_iff stableEngine plainJson "r" (token "s0" 0) [token "s1" 10] registered
    (fresh_registered (by simp [token]) (by decide))).mpr ⟨by decide,by decide,by decide⟩

/-- The second rotation of a chain answers with the violated constraint. -/
theorem second_rotation_refused :
    Fresh "r" [token "s0" 0,token "s1" 10,token "s2" 20] registered ∧
    NewRequest "r" registered ∧ (getClient plainJson registered "app").isSome ∧
    ((chain stableEngine plainJson "r" (token "s0" 0) [token "s1" 10] registered).map fun db =>
      (rotateRefreshToken stableEngine "r" "s1" db).2) = some (.error .constraint) ∧
    ¬ ChainHolds stableEngine plainJson "r" (token "s0" 0) [token "s1" 10,token "s2" 20]
      registered := by
  have he : Fresh "r" [token "s0" 0,token "s1" 10,token "s2" 20] registered :=
    fresh_registered (by simp [token]) (by decide)
  exact ⟨he,by decide,by decide,by decide, longer_fails stableEngine plainJson he (by decide)⟩

end SdkApi.RefreshRotation
