import SdkApi.CredentialMiddleware
import SdkApi.ExpiringCopies
import SdkApi.GuardedRuns
import SdkApi.AssocLists
import Mathlib.Logic.Function.Basic

/-!
# How old a remote verdict may be

Two caches stand between a request and a remote endpoint: the verdicts of the
introspection endpoint, by token hash, and the keys of the key endpoint, by
`kid`. Requests and answers come in any order; each cache check with its use,
and each answer with what is done about it, is one instant. The instants of
the answers are recorded, so that a use can be compared with them.
-/

namespace SdkApi.CachedVerdicts
open GoStrings RequestContext CredentialMiddleware ExpiringCopies GuardedRuns AssocLists
open List Function

section

structure IntrospectSettings where
  introspectionURL : String
  cacheTTL : ℤ

def IntrospectSettings.ttl (cfg : IntrospectSettings) : ℤ :=
  if cfg.cacheTTL ≤ 0 then 60*1000000000 else cfg.cacheTTL

def IntrospectSettings.disabled (cfg : IntrospectSettings) : Bool := cfg.cacheTTL ≤ 0

structure CacheEntry where
  auth : AuthContext
  roles : List String
  expires : ℤ

def CacheEntry.identity (e : CacheEntry) : AuthContext := { e.auth with roles := e.roles }

abbrev IntrospectCache (κ : Type) := κ → Option CacheEntry

variable {κ : Type} [DecidableEq κ]

def IntrospectCache.get (m : IntrospectCache κ) (now : ℤ) (key : κ) :
    Option AuthContext × IntrospectCache κ :=
  match m key with
  | none => (none,Function.update m key none)
  | some e =>
    if e.expires < now then (none,Function.update m key none)
    else (some e.identity,m)

def IntrospectCache.set (m : IntrospectCache κ) (now : ℤ) (key : κ) (auth : AuthContext)
    (ttl : ℤ) : IntrospectCache κ :=
  Function.update m key (some ⟨auth,auth.roles,now+ttl⟩)

structure Introspections (κ : Type) where
  now : ℤ
  entries : IntrospectCache κ
  waiting : List (Ctx × String)
  answered : List (ℤ × String × Introspection)
  finished : List (ℤ × Outcome)

inductive IntrospectEvent where
  | request (c : Ctx)
  | reply (i : ℕ) (r : Except String Introspection)

def Introspections.finish (s : Introspections κ) (o : Outcome) : Introspections κ :=
  { s with finished := (s.now,o)::s.finished }

variable (cfg : IntrospectSettings) (hash : String → κ)

def Introspections.request (s : Introspections κ) (c : Ctx) : Introspections κ :=
  match cutPrefix c.req.authorization "Bearer " with
  | (token,ok) =>
    if ok = false ∨ trimSpace token = "" then s.finish (respond c 401 "missing bearer token")
    else if cfg.introspectionURL = "" then
      s.finish (respond c 500 "oauth introspection not configured")
    else if cfg.disabled then { s with waiting := s.waiting++[(c,token)] }
    else
      match s.entries.get s.now (hash token) with
      | (some auth,_) => s.finish (next (c.inject "oauth" auth))
      | (none,entries) => { s with entries := entries, waiting := s.waiting++[(c,token)] }

/-- What `introspectToken` makes of an answer. -/
def verdictOf (token : String) (r : Except String Introspection) : Except String AuthContext :=
  introspectToken ⟨cfg.introspectionURL,fun _ => r,fun _ => none⟩ token

/-- The rest of the handler, from the answer for the `i`-th waiting request. -/
def Introspections.reply (s : Introspections κ) (i : ℕ) (r : Except String Introspection) :
    Introspections κ :=
  match s.waiting[i]? with
  | none => s
  | some (c,token) =>
    let s : Introspections κ := { s with
      waiting := s.waiting.eraseIdx i
      answered := (r.toOption.map fun claims => (s.now,token,claims)).toList++s.answered }
    match verdictOf cfg token r with
    | .error msg => s.finish (respond c 401 msg)
    | .ok auth =>
      let s : Introspections κ :=
        if cfg.disabled then s
        else { s with entries := s.entries.set s.now (hash token) auth cfg.ttl }
      s.finish (next (c.inject "oauth" auth))

def Introspections.step (s : Introspections κ) (e : ℤ × IntrospectEvent) : Introspections κ :=
  let s := { s with now := e.1 }
  match e.2 with
  | .request c => s.request cfg hash c
  | .reply i r => s.reply cfg hash i r

/-- A run from the empty cache with a clock that never goes back. -/
def Introspected (start : ℤ) (es : List (ℤ × IntrospectEvent)) (s : Introspections κ) : Prop :=
  Run (fun s e t => s.step cfg hash e = t) (fun s e => s.now ≤ e.1)
    ⟨start,fun _ => none,[],[],[]⟩ es s

structure Vouches (claims : Introspection) (auth : AuthContext) : Prop where
  active : claims.active = true
  subject : auth.userID = if claims.sub = "" then claims.username else claims.sub
  roles : auth.roles = fields claims.scope

def Confirmed (answered : List (ℤ × String × Introspection)) (span now : ℤ) (token : String)
    (auth : AuthContext) : Prop :=
  ∃ claims, Vouches claims auth ∧ Within answered span now (token,claims)

variable {cfg hash}
variable {auth : AuthContext} {token : String} {now : ℤ} {m' : IntrospectCache κ}
  {m : IntrospectCache κ}

lemma verdictOf_ok {r : Except String Introspection}
    (h : verdictOf cfg token r = .ok auth) : ∃ claims, r = .ok claims ∧ Vouches claims auth := by
  unfold verdictOf introspectToken at h
  split at h
  · cases h
  · rename_i claims hl
    dsimp only at hl h
    split_ifs at h with ha hu
    all_goals
      cases h
      refine ⟨claims,hl,by simpa using ha,?_,rfl⟩
      simp [hu]

lemma get_hit {key : κ} (h : m.get now key = (some auth,m')) :
    ∃ e, m key = some e ∧ now ≤ e.expires ∧ auth = e.identity := by
  unfold IntrospectCache.get at h
  split at h
  · cases h
  · rename_i e he
    split_ifs at h with hl
    · cases h
    · cases h
      exact ⟨e,he,by omega,rfl⟩

lemma get_miss {key : κ} (h : m.get now key = (none,m')) : m' = update m key none := by
  unfold IntrospectCache.get at h
  split at h
  · cases h
    rfl
  · split_ifs at h <;> cases h
    rfl

variable (cfg hash)

/-- The endpoint has confirmed the identity in this window. -/
def LetThrough (answered : List (ℤ × String × Introspection)) (span now : ℤ) (d : Ctx) : Prop :=
  ∃ token auth, cutPrefix d.req.authorization "Bearer " = (token,true) ∧ d.auth = some auth ∧
    Confirmed answered span now token auth

structure Introspections.Sound (s : Introspections κ) : Prop where
  waiting : ∀ w ∈ s.waiting, cutPrefix w.1.req.authorization "Bearer " = (w.2,true)
  entries : ∀ key e, s.entries key = some e → ∃ token claims, key = hash token ∧
    Vouches claims e.identity ∧
    Backed s.answered cfg.ttl s.now e.expires (token,claims)
  finished : ∀ t d, (t,.next d) ∈ s.finished → LetThrough s.answered (max cfg.cacheTTL 0) t d

variable {cfg hash} {s : Introspections κ}

lemma LetThrough.mono {answered answered' : List (ℤ × String × Introspection)} {span now : ℤ}
    {d : Ctx} (h : LetThrough answered span now d) (hu : answered ⊆ answered') :
    LetThrough answered' span now d := by
  obtain ⟨token,auth,ht,ha,claims,ho,hi⟩ := h
  exact ⟨token,auth,ht,ha,claims,ho,hi.mono hu⟩

omit [DecidableEq κ] in
lemma sound_finish (h : s.Sound cfg hash) {o : Outcome}
    (ho : ∀ d, o = .next d → LetThrough s.answered (max cfg.cacheTTL 0) s.now d) :
    (s.finish o).Sound cfg hash where
  waiting := h.waiting
  entries := h.entries
  finished t d hm := by
    rcases mem_cons.mp hm with he | hm
    · obtain ⟨rfl,hd⟩ := Prod.mk.inj he
      exact ho d hd.symm
    · exact h.finished t d hm

omit [DecidableEq κ] in
lemma sound_stop (h : s.Sound cfg hash) (c : Ctx) {status : ℕ} {msg : String} :
    (s.finish (respond c status msg)).Sound cfg hash :=
  sound_finish h fun d hd => absurd hd (by simp)

omit [DecidableEq κ] in
lemma sound_later (h : s.Sound cfg hash) (hn : s.now ≤ now)
    {answered : List (ℤ × String × Introspection)} (hu : s.answered ⊆ answered) :
    Introspections.Sound cfg hash { s with now := now, answered := answered } where
  waiting := h.waiting
  entries key e he := by
    obtain ⟨token,claims,hk,ho,hb⟩ := h.entries key e he
    exact ⟨token,claims,hk,ho,hb.later hu hn⟩
  finished t d hm := (h.finished t d hm).mono hu

omit [DecidableEq κ] in
lemma sound_wait (h : s.Sound cfg hash) {c : Ctx}
    (hc : cutPrefix c.req.authorization "Bearer " = (token,true)) :
    Introspections.Sound cfg hash { s with waiting := s.waiting++[(c,token)] } where
  waiting w hw := by
    rcases mem_append.mp hw with hw | hw
    · exact h.waiting w hw
    · rw [mem_singleton.mp hw]
      exact hc
  entries := h.entries
  finished := h.finished

lemma sound_delete (h : s.Sound cfg hash) (key : κ) :
    Introspections.Sound cfg hash { s with entries := update s.entries key none } where
  waiting := h.waiting
  entries k e he := by
    by_cases hk : k = key
    · simp [hk] at he
    · exact h.entries k e ((update_of_ne hk _ _).symm.trans he)
  finished := h.finished

lemma sound_set (h : s.Sound cfg hash) {claims : Introspection} (ho : Vouches claims auth)
    (ha : (s.now,token,claims) ∈ s.answered) :
    Introspections.Sound cfg hash
      { s with entries := s.entries.set s.now (hash token) auth cfg.ttl } where
  waiting := h.waiting
  entries k e he := by
    simp only [IntrospectCache.set, update_apply] at he
    split_ifs at he with hk
    · cases he
      exact ⟨token,claims,hk,ho,backed_recorded ha⟩
    · exact h.entries k e he
  finished := h.finished

lemma ttl_of_enabled (h : cfg.disabled = false) : cfg.ttl = max cfg.cacheTTL 0 := by
  have ho : ¬ cfg.cacheTTL ≤ 0 := by simpa [IntrospectSettings.disabled] using h
  rw [IntrospectSettings.ttl, if_neg ho]
  omega

lemma sound_request (hn : Injective hash) (h : s.Sound cfg hash) (c : Ctx) :
    (s.request cfg hash c).Sound cfg hash := by
  unfold Introspections.request
  rcases hu : cutPrefix c.req.authorization "Bearer " with ⟨token,ok⟩
  dsimp only
  split_ifs with hm hl hi
  · exact sound_stop h c
  · exact sound_stop h c
  · obtain rfl : ok := by simpa using fun hok => hm (.inl hok)
    exact sound_wait h hu
  · obtain rfl : ok := by simpa using fun hok => hm (.inl hok)
    split
    · rename_i auth entries hg
      obtain ⟨e,he,hfr,rfl⟩ := get_hit hg
      obtain ⟨token',claims,hk,ho,hb⟩ := h.entries _ e he
      -- the hash has no collisions, so the entry is this token's
      obtain rfl := hn hk
      refine sound_finish h fun d hd => ?_
      obtain rfl := (next_eq _ _).mp hd
      refine ⟨token,_,hu,rfl,claims,ho,?_⟩
      rw [← ttl_of_enabled (by simpa using hi)]
      exact hb.within hfr
    · rename_i entries hg
      rw [get_miss hg]
      exact sound_wait (sound_delete h _) hu

lemma sound_reply (h : s.Sound cfg hash) (i : ℕ) (r : Except String Introspection) :
    (s.reply cfg hash i r).Sound cfg hash := by
  unfold Introspections.reply
  split
  · exact h
  · rename_i c token ha
    have hu := h.waiting (c,token) (mem_of_getElem? ha)
    have hl : Introspections.Sound cfg hash { s with
        waiting := s.waiting.eraseIdx i
        answered := (r.toOption.map fun claims => (s.now,token,claims)).toList++s.answered } := by
      have ht := sound_later h (le_refl s.now)
        (subset_append_right (r.toOption.map fun claims => (s.now,token,claims)).toList _)
      exact ⟨fun w hw => h.waiting w (mem_of_mem_eraseIdx hw),ht.entries,ht.finished⟩
    dsimp only
    split
    · exact sound_stop hl c
    · rename_i auth he
      obtain ⟨claims,rfl,ho⟩ := verdictOf_ok he
      have hpass : LetThrough ((s.now,token,claims)::s.answered) (max cfg.cacheTTL 0) s.now
          (c.inject "oauth" auth) :=
        ⟨token,auth,hu,rfl,claims,ho, within_recorded (.head _) (le_max_right _ _)⟩
      split_ifs with hi
      · exact sound_finish hl fun d hd => (next_eq _ _).mp hd ▸ hpass
      · exact sound_finish (sound_set hl ho (.head _))
          fun d hd => (next_eq _ _).mp hd ▸ hpass

lemma sound_introspected (hi : Injective hash) {start : ℤ}
    {es : List (ℤ × IntrospectEvent)} (h : Introspected cfg hash start es s) :
    s.Sound cfg hash := by
  refine run_invariant (Introspections.Sound cfg hash) ?_ h ⟨nofun,nofun,nofun⟩
  rintro u ⟨t,e⟩ - hu hl rfl
  have hn := sound_later hu hl (Subset.refl u.answered)
  cases e with
  | request c => exact sound_request hi hn c
  | reply i r => exact sound_reply hn i r

end

section

structure JWK where
  kid : String
  kty : String
  n : String
  e : String

structure PublicKey where
  n : ℕ
  e : ℕ

/-- `SetBytes` of a big integer. -/
def setBytes (bytes : List UInt8) : ℕ := bytes.foldl (fun n b => n*256+b.toNat) 0

structure Decoders (β : Type) where
  rawURL : String → Option (List UInt8)
  jwksURI : β → Except String String
  keys : β → Except String (List JWK)

abbrev Keys := List (String × PublicKey)

variable {β : Type} (d : Decoders β) (ttl : ℤ)

/-- The key of an entry that is not skipped; its exponent fits an `int`. -/
def publicKey (key : JWK) : Option PublicKey :=
  if key.kty ≠ "RSA" then none
  else do
    let nBytes ← d.rawURL key.n
    let eBytes ← d.rawURL key.e
    pure ⟨setBytes nBytes,setBytes eBytes⟩

def addKey (keys : Keys) (key : JWK) : Keys :=
  match publicKey d key with
  | none => keys
  | some pub => (key.kid,pub)::keys.filter fun e => decide (e.1 ≠ key.kid)

def parseJWKS (body : β) : Except String Keys :=
  match d.keys body with
  | .error msg => .error ("jwks: parse: " ++ msg)
  | .ok listed => .ok (listed.foldl (addKey d) [])

inductive Fetch where
  | document
  | jwksURI

structure Resolver (β : Type) where
  now : ℤ
  keys : Keys
  keysExp : ℤ
  queue : List String
  holder : Option (String × Fetch)
  fetched : List (ℤ × β)
  finished : List (ℤ × Option String × Except String PublicKey)

inductive ResolverEvent (β : Type) where
  | call (kid : Option String)
  | lock (i : ℕ)
  | fetch (r : Except String β)

def Resolver.finish (s : Resolver β) (kid : Option String) (r : Except String PublicKey) :
    Resolver β :=
  { s with finished := (s.now,kid,r)::s.finished }

/-- Both cache checks of `getKeys`. -/
def Resolver.fresh (s : Resolver β) : Bool := s.now < s.keysExp && !s.keys.isEmpty

/-- The end of `KeyFunc`. -/
def Resolver.resolve (s : Resolver β) (kid : String) : Resolver β :=
  s.finish (some kid) (match s.keys.lookup kid with
    | none => .error ("jwks: unknown kid " ++ kid)
    | some key => .ok key)

/-- A call reads the cache while nobody holds the write lock. -/
def Resolver.call (s : Resolver β) (kid : Option String) : Resolver β :=
  match kid with
  | none => s.finish none (.error "jwks: token missing kid header")
  | some kid =>
    if s.holder.isSome then s
    else if s.fresh then s.resolve kid
    else { s with queue := s.queue++[kid] }

/-- The `i`-th waiting call gets the lock and checks again. -/
def Resolver.lock (s : Resolver β) (i : ℕ) : Resolver β :=
  if s.holder.isSome then s
  else
    match s.queue[i]? with
    | none => s
    | some kid =>
      let s := { s with queue := s.queue.eraseIdx i }
      if s.fresh then s.resolve kid else { s with holder := some (kid,.document) }

def Resolver.store (s : Resolver β) (kid : String) (body : β) : Resolver β :=
  match parseJWKS d body with
  | .error msg => s.finish (some kid) (.error msg)
  | .ok keys => Resolver.resolve { s with keys := keys, keysExp := s.now+ttl } kid

/-- `fetchJWKS`, from the end of one of its fetches. -/
def Resolver.fetch (s : Resolver β) (r : Except String β) : Resolver β :=
  match s.holder with
  | none => s
  | some (kid,stage) =>
    let s := { s with holder := none }
    match r with
    | .error msg => s.finish (some kid) (.error (match stage with
        | .document => "jwks: fetch: " ++ msg
        | .jwksURI => "jwks: fetch jwks_uri: " ++ msg))
    | .ok body =>
      let s := { s with fetched := (s.now,body)::s.fetched }
      match stage with
      | .jwksURI => s.store d ttl kid body
      | .document =>
        match d.jwksURI body with
        | .error msg => s.finish (some kid) (.error ("jwks: parse response: " ++ msg))
        | .ok uri =>
          if uri ≠ "" then { s with holder := some (kid,.jwksURI) } else s.store d ttl kid body

def Resolver.step (s : Resolver β) (e : ℤ × ResolverEvent β) : Resolver β :=
  let s := { s with now := e.1 }
  match e.2 with
  | .call kid => s.call kid
  | .lock i => s.lock i
  | .fetch r => s.fetch d ttl r

/-- A run of a new resolver with a clock that never goes back. -/
def Resolved (start : ℤ) (es : List (ℤ × ResolverEvent β)) (s : Resolver β) : Prop :=
  Run (fun s e t => s.step d ttl e = t) (fun s e => s.now ≤ e.1) ⟨start,[],0,[],none,[],[]⟩ es s

/-- The document lists the key under the `kid`. -/
def Lists (body : β) (kid : String) (pub : PublicKey) : Prop :=
  ∃ listed, d.keys body = .ok listed ∧ ∃ key ∈ listed, key.kid = kid ∧ publicKey d key = some pub

structure Resolver.Sound (s : Resolver β) : Prop where
  keys : s.keys ≠ [] → ∃ body, parseJWKS d body = .ok s.keys ∧
    Backed s.fetched ttl s.now s.keysExp body
  finished : ∀ t kid pub, (t,some kid,.ok pub) ∈ s.finished →
    ∃ body, Lists d body kid pub ∧ Within s.fetched (max ttl 0) t body

variable {d ttl} {s : Resolver β} {pub : PublicKey} {kid : String} {keys : Keys}

lemma lookup_addKey {key : JWK} (h : (addKey d keys key).lookup kid = some pub) :
    (key.kid = kid ∧ publicKey d key = some pub) ∨ keys.lookup kid = some pub := by
  unfold addKey at h
  split at h
  · exact .inr h
  · rename_i pub' hu
    by_cases hk : kid = key.kid
    · subst hk
      rw [lookup_cons_self] at h
      exact .inl ⟨rfl,hu.trans h⟩
    · rw [lookup_cons, beq_eq_false_iff_ne.mpr hk, lookup_drop_key_ne hk] at h
      exact .inr h

lemma lists_of_parseJWKS {body : β} (h : parseJWKS d body = .ok keys)
    (he : keys.lookup kid = some pub) : Lists d body kid pub := by
  have ho : ∀ (listed : List JWK) (acc : Keys),
      (listed.foldl (addKey d) acc).lookup kid = some pub →
      (∃ key ∈ listed, key.kid = kid ∧ publicKey d key = some pub) ∨
        acc.lookup kid = some pub := by
    intro listed
    induction listed with
    | nil => exact fun acc ha => .inr ha
    | cons key listed ih =>
      intro acc ha
      rcases ih _ ha with ⟨k,hk,hu⟩ | had
      · exact .inl ⟨k,.tail _ hk,hu⟩
      · rcases lookup_addKey had with he | ha
        · exact .inl ⟨key,.head _,he⟩
        · exact .inr ha
  unfold parseJWKS at h
  split at h
  · cases h
  · rename_i listed hl
    cases h
    refine ⟨listed,hl,?_⟩
    simpa using ho listed [] he

section

variable (h : s.Sound d ttl) {body : β}
include h

lemma resolver_finish {kid : Option String} {r : Except String PublicKey}
    (hr : ∀ k pub, kid = some k → r = .ok pub →
      ∃ body, Lists d body k pub ∧ Within s.fetched (max ttl 0) s.now body) :
    (s.finish kid r).Sound d ttl where
  keys := h.keys
  finished t k pub hm := by
    rcases mem_cons.mp hm with hq | hm
    · obtain ⟨rfl,he⟩ := Prod.mk.inj hq
      obtain ⟨hk,hu⟩ := Prod.mk.inj he
      exact hr k pub hk.symm hu.symm
    · exact h.finished t k pub hm

lemma resolver_error {kid : Option String} {msg : String} :
    (s.finish kid (.error msg)).Sound d ttl :=
  resolver_finish h fun _ _ _ hr => nomatch hr

lemma resolver_later {now : ℤ} (hn : s.now ≤ now)
    {fetched : List (ℤ × β)} (hu : s.fetched ⊆ fetched) (queue : List String)
    (holder : Option (String × Fetch)) :
    Resolver.Sound d ttl
      { s with now := now, queue := queue, holder := holder, fetched := fetched } where
  keys he := by
    obtain ⟨body,ha,hb⟩ := h.keys he
    exact ⟨body,ha,hb.later hu hn⟩
  finished t kid pub hm := by
    obtain ⟨body,hl,hi⟩ := h.finished t kid pub hm
    exact ⟨body,hl,hi.mono hu⟩

lemma resolver_resolve (ha : parseJWKS d body = .ok s.keys)
    (hi : Within s.fetched (max ttl 0) s.now body) (kid : String) :
    (s.resolve kid).Sound d ttl := by
  refine resolver_finish h fun k pub hk hu => ?_
  cases hk
  split at hu
  · cases hu
  · rename_i key he
    cases hu
    exact ⟨body,lists_of_parseJWKS ha he,hi⟩

lemma resolver_hit (he : s.fresh) (kid : String) : (s.resolve kid).Sound d ttl := by
  obtain ⟨hx,hn⟩ : s.now < s.keysExp ∧ s.keys ≠ [] := by simpa [Resolver.fresh] using he
  obtain ⟨body,ha,hb⟩ := h.keys hn
  exact resolver_resolve h ha ((hb.within hx.le).widen (le_max_left _ _)) kid

lemma resolver_store (hbody : (s.now,body) ∈ s.fetched)
    (kid : String) : (s.store d ttl kid body).Sound d ttl := by
  unfold Resolver.store
  split
  · exact resolver_error h
  · rename_i keys ha
    have ht : Resolver.Sound d ttl { s with keys := keys, keysExp := s.now+ttl } :=
      ⟨fun _ => ⟨body,ha,backed_recorded hbody⟩,h.finished⟩
    exact resolver_resolve ht ha (within_recorded hbody (le_max_right _ _)) kid

lemma resolver_fetch (r : Except String β) : (s.fetch d ttl r).Sound d ttl := by
  unfold Resolver.fetch
  split
  · exact h
  · rename_i kid stage _
    split
    · exact resolver_error (resolver_later h (le_refl _) (Subset.refl _) _ _)
    · rename_i body
      have hi := resolver_later h (le_refl _)
        (subset_cons_self (s.now,body) s.fetched) s.queue none
      cases stage with
      | jwksURI => exact resolver_store hi (.head _) kid
      | document =>
        dsimp only
        split
        · exact resolver_error hi
        · split_ifs
          · exact resolver_later hi (le_refl _) (Subset.refl _) _ _
          · exact resolver_store hi (.head _) kid

lemma resolver_call (kid : Option String) : (s.call kid).Sound d ttl := by
  cases kid with
  | none => exact resolver_error h
  | some kid =>
    unfold Resolver.call
    dsimp only
    split_ifs with hl he
    · exact h
    · exact resolver_hit h he kid
    · exact resolver_later h (le_refl _) (Subset.refl _) _ _

lemma resolver_lock (i : ℕ) : (s.lock i).Sound d ttl := by
  unfold Resolver.lock
  by_cases he : s.holder.isSome
  · rw [if_pos he]
    exact h
  · rw [if_neg he]
    split
    · exact h
    · rename_i kid _
      have hl := resolver_later h (le_refl _) (Subset.refl _) (s.queue.eraseIdx i) s.holder
      dsimp only
      split_ifs with hfr
      · exact resolver_hit hl hfr kid
      · exact resolver_later h (le_refl _) (Subset.refl _) _ _

end

lemma sound_resolved {start : ℤ} {es : List (ℤ × ResolverEvent β)}
    (h : Resolved d ttl start es s) : s.Sound d ttl := by
  refine run_invariant (Resolver.Sound d ttl) ?_ h ⟨fun he => absurd rfl he,nofun⟩
  rintro u ⟨t,e⟩ - hu hl rfl
  have hn := resolver_later hu hl (Subset.refl u.fetched) u.queue u.holder
  cases e with
  | call kid => exact resolver_call hn kid
  | lock i => exact resolver_lock hn i
  | fetch r => exact resolver_fetch hn r

end

/-- An identity that goes on with a request is the one of an active answer for
that very token, no older than the cache lifetime and of the same instant
without a cache; a key that is returned stands under its `kid` in a document
fetched within the lifetime of the keys. -/
theorem verdicts_fresh {κ β : Type} [DecidableEq κ] (hash : String → κ)
    (hinj : Function.Injective hash) (cfg : IntrospectSettings) (d : Decoders β) (ttl : ℤ) :
    (∀ start es s, Introspected cfg hash start es s → ∀ t c, (t,.next c) ∈ s.finished →
      ∃ token auth asked claims, cutPrefix c.req.authorization "Bearer " = (token,true) ∧
        c.auth = some auth ∧ (asked,token,claims) ∈ s.answered ∧ Vouches claims auth ∧
        t-max cfg.cacheTTL 0 ≤ asked ∧ asked ≤ t ∧ (cfg.cacheTTL ≤ 0 → asked = t)) ∧
    (∀ start es s, Resolved d ttl start es s → ∀ t kid pub, (t,some kid,.ok pub) ∈ s.finished →
      ∃ done body, (done,body) ∈ s.fetched ∧ Lists d body kid pub ∧
        t-max ttl 0 ≤ done ∧ done ≤ t) := by
  constructor
  · intro start es s hrun t c he
    obtain ⟨token,auth,ht,hu,claims,ho,asked,ha,hm,hto⟩ :=
      (sound_introspected hinj hrun).finished t c he
    exact ⟨token,auth,asked,claims,ht,hu,ha,ho,hm,hto,fun hof => by omega⟩
  · intro start es s hrun t kid pub he
    obtain ⟨body,hl,done,hn,hm,hto⟩ := (sound_resolved hrun).finished t kid pub he
    exact ⟨done,body,hn,hl,hm,hto⟩

def bearer (token : String) : Ctx where
  req := ⟨fun h => if h = "authorization" then "Bearer " ++ token else "",[],fun _ => ""⟩

def sampleRequests : List (ℤ × IntrospectEvent) :=
  [(0,.request (bearer "x")),(1,.reply 0 (.ok ⟨true,"ann","","read"⟩)),(61,.request (bearer "x"))]

def sampleIntrospections : Introspections String :=
  sampleRequests.foldl (fun s e => s.step ⟨"idp",60⟩ id e) ⟨0,fun _ => none,[],[],[]⟩

def sampleDecoders : Decoders String :=
  ⟨fun _ => some [1],fun _ => .ok "",fun _ => .ok [⟨"k","RSA","AQ","AQ"⟩]⟩

def sampleCalls : List (ℤ × ResolverEvent String) :=
  [(0,.call (some "k")),(0,.lock 0),(2,.fetch (.ok "keys")),(5,.call (some "k"))]

def sampleResolver : Resolver String :=
  sampleCalls.foldl (fun s e => s.step sampleDecoders 10 e) ⟨0,[],0,[],none,[],[]⟩

/-- A token is confirmed at 1 and used again at 61, the last instant of its
entry; a key is fetched at 2 and used again at 5. -/
theorem verdicts_fresh_sample :
    Introspected ⟨"idp",60⟩ id 0 sampleRequests sampleIntrospections ∧
    Resolved sampleDecoders 10 0 sampleCalls sampleResolver ∧
    (∃ c, (61,.next c) ∈ sampleIntrospections.finished ∧ ∃ asked claims auth,
      (asked,"x",claims) ∈ sampleIntrospections.answered ∧ c.auth = some auth ∧
        Vouches claims auth ∧ 1 ≤ asked ∧ asked ≤ 61) ∧
    (5,some "k",.ok ⟨1,1⟩) ∈ sampleResolver.finished ∧
    ∃ done body, (done,body) ∈ sampleResolver.fetched ∧ Lists sampleDecoders body "k" ⟨1,1⟩ ∧
      -5 ≤ done ∧ done ≤ 5 := by
  have ht : Introspected ⟨"idp",60⟩ id 0 sampleRequests sampleIntrospections :=
    .cons (by decide) rfl (.cons (by decide) rfl (.cons (by decide) rfl (.nil _)))
  have hk : Resolved sampleDecoders 10 0 sampleCalls sampleResolver :=
    .cons (by decide) rfl (.cons (by decide) rfl (.cons (by decide) rfl
      (.cons (by decide) rfl (.nil _))))
  have hpass : (61,next ((bearer "x").inject "oauth" ⟨"ann","",["read"],[],"x",none⟩)) ∈
      sampleIntrospections.finished := mem_of_mem_head? rfl
  have hy : (5,some "k",.ok ⟨1,1⟩) ∈ sampleResolver.finished := mem_of_mem_head? rfl
  obtain ⟨hi,he⟩ :=
    verdicts_fresh id injective_id ⟨"idp",60⟩ sampleDecoders 10
  obtain ⟨token,auth,asked,claims,hcu,hau,ha,ho,hm,hto,-⟩ :=
    hi _ _ _ ht _ _ hpass
  obtain ⟨done,body,hdo,hl,hn,hu⟩ := he _ _ _ hk _ _ _ hy
  obtain rfl : "x" = token := congrArg Prod.fst hcu
  exact ⟨ht,hk,⟨_,hpass,asked,claims,auth,ha,hau,ho,hm,hto⟩,hy, done,body,hdo,hl,hn,hu⟩

end SdkApi.CachedVerdicts
