import SdkApi.AsyncNilSafety
import SdkApi.SsrfProtection

/-!
# Where a callback is sent

The URL of a callback may come from the body of the request. It goes into the
record of the job and from there, when the job is done, to the default client:
the check of outbound targets is not on this way. The request goes to whatever
address the resolver gives for the host and to whatever a server redirects to.
-/

namespace SdkApi.CallbackTargets
open JobStores JobSchedules AsyncManager AsyncNilSafety IpNetworks SsrfGuard SsrfProtection List
open Tables (GoMap)

/-- What happens outside during one attempt. -/
structure Attempt where
  cancelled : Bool
  first : Lookup
  redirects : List (String × Lookup)
  status : Option ℕ

section

variable (lib : Library)

/-- The scheme of a request and the host that the transport reads in it. -/
def newCallbackRequest (url : String) : Except String (String × String) :=
  match lib.parseURL url with
  | .error e => .error e
  | .ok u => (lib.newRequest "POST" u.scheme u.safeHost u.path).map fun host => (u.scheme,host)

/-- The client refuses other schemes and requests without a host. -/
def sendable (scheme host : String) : Bool := (scheme = "http" || scheme = "https") && host ≠ ""

/-- The addresses that `http.DefaultClient` dials for one request. -/
def dials (host : String) (a : Attempt) : List Addr :=
  dialled lib host a.first++(a.redirects.take 9).flatMap fun r => dialled lib r.1 r.2

/-- The turns of the loop that are left, from the `i`-th on. -/
def attempts (scheme host : String) (o : ℕ → Attempt) : ℕ → ℕ → List Addr
  | 0, _ => []
  | n+1, i =>
    if sendable scheme host = false ∨ (o i).cancelled = true then attempts scheme host o n (i+1)
    else
      dials lib host (o i)++
        if (o i).status.any fun status => 200 ≤ status && status < 300 then []
        else attempts scheme host o n (i+1)

/-- The addresses that the second half of `notifyCallback` dials. -/
def notifyCallback (t : Target) (o : ℕ → Attempt) : List Addr :=
  match newCallbackRequest lib t.url with
  | .error _ => []
  | .ok (scheme,host) => attempts lib scheme host o (t.maxRetry+1).toNat 0

/-- The addresses that are dialled for a job. After a panic there are none. -/
def callbackConnections (r : Except Failure (Option Target)) (o : ℕ → Attempt) : List Addr :=
  match r with
  | .ok (some t) => notifyCallback lib t o
  | _ => []

def GoesTo (url host : String) : Prop :=
  ∃ scheme, newCallbackRequest lib url = .ok (scheme,host) ∧ sendable scheme host = true

variable {lib} {scheme host : String} {o : ℕ → Attempt} {ip : Addr}

lemma mem_attempts {n i : ℕ} (h : ip ∈ attempts lib scheme host o n i) :
    sendable scheme host ∧ ∃ j, (o j).cancelled = false ∧ ip ∈ dials lib host (o j) := by
  induction n generalizing i with
  | zero => cases h
  | succ n ih =>
    rw [attempts] at h
    split at h
    · exact ih h
    · rename_i he
      rw [not_or, Bool.not_eq_false, Bool.not_eq_true] at he
      rcases mem_append.mp h with hi | hl
      · exact ⟨he.1,i,he.2,hi⟩
      · split at hl
        · cases hl
        · exact ih hl

lemma mem_notifyCallback {t : Target} (h : ip ∈ notifyCallback lib t o) :
    ∃ host, GoesTo lib t.url host ∧ ∃ j, (o j).cancelled = false ∧ ip ∈ dials lib host (o j) := by
  rw [notifyCallback] at h
  split at h
  · cases h
  · rename_i scheme host hq
    obtain ⟨he,hi⟩ := mem_attempts h
    exact ⟨host,⟨scheme,hq,he⟩,hi⟩

lemma notifyCallback_of_dials {t : Target} (hm : 0 ≤ t.maxRetry) (hg : GoesTo lib t.url host)
    (ha : (o 0).cancelled = false) (hi : ip ∈ dials lib host (o 0)) :
    ip ∈ notifyCallback lib t o := by
  obtain ⟨scheme,hq,he⟩ := hg
  obtain ⟨n,hn⟩ : ∃ n, (t.maxRetry+1).toNat = n+1 := ⟨t.maxRetry.toNat,by omega⟩
  rw [notifyCallback, hq]
  simp only [hn, attempts, he, ha, Bool.true_eq_false, Bool.false_eq_true, or_self, if_false]
  exact mem_append_left _ hi

variable (svc : Service) (pre : String) (e : AsyncEntry) (body : Body)

/-- Only the memory store keeps the URL of the body. -/
def notifiedURL : Option String :=
  match registerOneEntry svc pre e with
  | .error _ => none
  | .ok mgr =>
    mgr.callback.bind fun cb =>
      let own := if mgr.kind = .memory then (bodyCallback body).getD "" else ""
      let url := if own = "" then cb.url else own
      if url = "" then none else some url

variable {svc pre e body} {R : Type}

lemma lifecycle_url {marshal : R → Option (Option R)} {w : World R}
    {jobs : GoMap (JobState R)} (he : jobs.lookup w.id = none) {t : Target}
    (h : lifecycle svc pre e marshal w jobs body = .ok (some t)) :
    notifiedURL svc pre e body = some t.url ∧ 0 ≤ t.maxRetry := by
  rw [lifecycle] at h
  rw [notifiedURL]
  cases hg : registerOneEntry svc pre e with
  | error err =>
    rw [hg] at h
    cases h
  | ok mgr =>
    rw [hg] at h
    obtain ⟨hm,js,cb,hj,hb,hn,hu⟩ := notifyTarget_url h
    rw [finalRecord_url he hj] at hu
    simp only [hb, Option.bind_some, ← hu, if_neg hn]
    exact ⟨trivial,hm⟩

lemma exists_lifecycle {url : String} (h : notifiedURL svc pre e body = some url) :
    ∃ t, lifecycle svc pre e (fun _ => none) plainJob [] body = .ok (some t) ∧ t.url = url := by
  rw [notifiedURL] at h
  rw [lifecycle]
  cases hg : registerOneEntry svc pre e with
  | error err =>
    rw [hg] at h
    cases h
  | ok mgr =>
    rw [hg] at h
    obtain ⟨cb,hb,hu⟩ := Option.bind_eq_some_iff.mp h
    obtain ⟨js,hj,ho⟩ := plainJob_record mgr body
    rw [← ho] at hu
    dsimp only at hu
    simp only [hj, hb, notifyTarget, target, follow]
    by_cases ho : js.callbackURL = ""
    · rw [if_pos ho] at hu ⊢
      by_cases he : cb.url = ""
      · rw [if_pos he] at hu
        cases hu
      · rw [if_neg he] at hu ⊢
        cases hu
        exact ⟨_,rfl,rfl⟩
    · rw [if_neg ho] at hu ⊢
      rw [if_neg ho] at hu
      cases hu
      exact ⟨_,rfl,rfl⟩

end

section

variable (lib : Library) (cfg : SSRFConfig) (svc : Service) (pre : String) (e : AsyncEntry)
  (body : Body)

/-- No callback of such a job is sent to a blocked address. -/
def NeverBlocked (ok : Attempt → Prop) : Prop :=
  ∀ (R : Type) (marshal : R → Option (Option R)) (w : World R) (jobs : GoMap (JobState R)),
    jobs.lookup w.id = none → ∀ o : ℕ → Attempt, (∀ i, ok (o i)) →
      ∀ ip ∈ callbackConnections lib (lifecycle svc pre e marshal w jobs body) o, ¬Blocked cfg ip

variable {lib cfg svc pre e body}

lemma neverBlocked_iff (ok : Attempt → Prop) :
    NeverBlocked lib cfg svc pre e body ok ↔
      ∀ url host, notifiedURL svc pre e body = some url → GoesTo lib url host →
        ∀ a, ok a → a.cancelled = false → ∀ ip ∈ dials lib host a, ¬Blocked cfg ip := by
  constructor
  · intro hn url host hu hg a hok ha ip hip
    obtain ⟨t,ht,rfl⟩ := exists_lifecycle hu
    obtain ⟨-,hm⟩ := lifecycle_url rfl ht
    refine hn Unit (fun _ => none) plainJob [] rfl (fun _ => a) (fun _ => hok) ip ?_
    rw [ht]
    exact notifyCallback_of_dials hm hg ha hip
  · intro hsa R marshal w jobs he o hok ip hip
    unfold callbackConnections at hip
    split at hip
    · rename_i t ht
      obtain ⟨host,hg,j,ha,hi⟩ := mem_notifyCallback hip
      exact hsa t.url host (lifecycle_url he ht).1 hg (o j) (hok j) ha ip hi
    · cases hip

def addresses (lib : Library) (host : String) (answer : List Addr) : List Addr :=
  match lib.parseIP host with
  | some ip => [ip]
  | none => answer

lemma mem_dialled_iff {host : String} {answer : List Addr} {ip : Addr} :
    (∃ tried, ip ∈ dialled lib host ⟨answer,tried⟩) ↔ ip ∈ addresses lib host answer := by
  constructor
  · rintro ⟨tried,hip⟩
    obtain ⟨i,-,hi⟩ := mem_filterMap.mp hip
    exact mem_of_getElem? hi
  · intro hip
    obtain ⟨i,hi⟩ := mem_iff_getElem?.mp hip
    exact ⟨[i],mem_filterMap.mpr ⟨i,mem_singleton_self i,hi⟩⟩

end

/-- Whatever the resolver and the servers answer, no callback reaches a blocked
address exactly if none is sent; and where nobody redirects and the resolver is
steady, exactly if no address of the notified host is blocked. -/
theorem callback_safe_iff (lib : Library) (cfg : SSRFConfig) (svc : Service) (pre : String)
    (e : AsyncEntry) (body : Body)
    (hflag : cfg.blockPrivate = true ∨ cfg.blockLoopback = true ∨ cfg.blockMetadata = true) :
    (NeverBlocked lib cfg svc pre e body (fun _ => True) ↔
      ∀ url, notifiedURL svc pre e body = some url → ∀ host, ¬GoesTo lib url host) ∧
    ∀ answer, NeverBlocked lib cfg svc pre e body
        (fun a => a.redirects = [] ∧ a.first.answer = answer) ↔
      ∀ url host, notifiedURL svc pre e body = some url → GoesTo lib url host →
        ∀ ip ∈ addresses lib host answer, ¬Blocked cfg ip := by
  constructor
  · rw [neverBlocked_iff]
    constructor
    · intro ha url hu host hg
      obtain ⟨target,ip,hi,hb⟩ := @exists_blocked lib _ hflag
      refine ha url host hu hg ⟨false,⟨[],[]⟩,[(target,⟨[],[0]⟩)],none⟩ trivial rfl ip ?_ hb
      simp [dials, dialled, hi]
    · intro hn url host hu hg
      exact absurd hg (hn url hu host)
  · intro answer
    rw [neverBlocked_iff]
    constructor
    · intro ha url host hu hg ip hi
      obtain ⟨tried,ht⟩ := mem_dialled_iff.mpr hi
      exact ha url host hu hg ⟨false,⟨answer,tried⟩,[],none⟩ ⟨rfl,rfl⟩ rfl ip
        (mem_append_left _ ht)
    · rintro ha url host hu hg ⟨_,⟨_,tried⟩,_,_⟩ ⟨rfl,rfl⟩ - ip hi
      refine ha url host hu hg ip (mem_dialled_iff.mp ⟨tried,?_⟩)
      simpa [dials] using hi

def exportEntry : AsyncEntry where
  path := "/jobs/exports"
  handler := "processReport"
  asyncStore := some { reassign := some {}, callback := some { retry := 1 } }

def metadataBody : Body := some [("_callback_url",.str "http://169.254.169.254/")]

theorem callback_safe_iff_sample :
    NeverBlocked (plainLibrary "http" "169.254.169.254") { blockMetadata := true } reportService ""
      exportEntry (some []) (fun _ => True) :=
  (callback_safe_iff (plainLibrary "http" "169.254.169.254") { blockMetadata := true } reportService
    "" exportEntry (some []) (.inr (.inr rfl))).1.mpr (fun url hu => by cases hu)

/-- The address of a cloud's metadata, which the checked client refuses, is
dialled for a callback. -/
theorem callback_reaches_metadata : let lib := plainLibrary "http" "169.254.169.254"
    let cfg : SSRFConfig := { blockMetadata := true }
    let metadata := Addr.v4 0xa9fea9fe#32
    validateAsync exportEntry = .ok exportEntry ∧
      notifiedURL reportService "" exportEntry metadataBody = some "http://169.254.169.254/" ∧
      (∀ host, doURL lib cfg none "http://169.254.169.254/" "POST" ≠ .request host) ∧
      Blocked cfg metadata ∧
      metadata ∈ callbackConnections lib
        (lifecycle reportService "" exportEntry (fun _ => none) plainJob [] metadataBody)
        (fun _ => ⟨false,⟨[],[0]⟩,[],some 200⟩) := by
  refine ⟨by decide,by decide,fun host => ?_,by decide,by decide⟩
  have he : ∃ message, doURL (plainLibrary "http" "169.254.169.254") { blockMetadata := true }
      none "http://169.254.169.254/" "POST" = .refused message := ⟨_,rfl⟩
  obtain ⟨message,hm⟩ := he
  rw [hm]
  simp

end SdkApi.CallbackTargets
