import SdkApi.AsyncManager

/-!
# Nil pointers on the way of an async job

The sections of an async entry are optional. The reassign section is followed
when the entry is registered, the callback section when a job is done and has
a URL to notify. In memory the URL may come from the body of the request.
-/

namespace SdkApi.AsyncNilSafety
open JobStores AsyncManager
open Tables (GoMap)

def lifecycle {R : Type} (svc : Service) (pre : String) (e : AsyncEntry)
    (marshal : R → Option (Option R)) (w : World R) (jobs : GoMap (JobState R)) (body : Body) :
    Except Failure (Option Target) :=
  match registerOneEntry svc pre e with
  | .error err => .error err
  | .ok mgr => notifyTarget svc mgr.callback (finalRecord mgr (storeOf mgr marshal) w jobs body)

/-- No job with this body follows a nil pointer. -/
def NilFree (svc : Service) (pre : String) (e : AsyncEntry) (body : Body) : Prop :=
  ∀ (R : Type) (marshal : R → Option (Option R)) (w : World R) (jobs : GoMap (JobState R)),
    jobs.lookup w.id = none →
    ∀ expr, lifecycle svc pre e marshal w jobs body ≠ .error (.nilPointer expr)

def Registered (svc : Service) (e : AsyncEntry) : Prop :=
  (∃ kind, svc.resolveAsyncStore e = .ok kind) ∧ svc.handlers e.handler = true

def callbackSection (e : AsyncEntry) : Option AsyncCallbackConf := e.asyncStore.bind (·.callback)

def AsksForCallback (body : Body) : Prop := ∃ url, url ≠ "" ∧ bodyCallback body = some url

/-- The reassign and callback sections that jobs need are there. -/
structure Covered (svc : Service) (e : AsyncEntry) (body : Body) : Prop where
  reassign : ∀ conf, e.asyncStore = some conf → conf.reassign ≠ none
  callback : svc.resolveAsyncStore e = .ok .memory → AsksForCallback body → callbackSection e ≠ none

section

variable {svc : Service} {e : AsyncEntry}

lemma validateAsync_path {e0 : AsyncEntry} (h : validateAsync e0 = .ok e) :
    e.path ≠ "" ∧ e.handler ≠ "" := by
  unfold validateAsync at h
  split at h
  · cases h
  · by_cases ht : e0.path = ""
    · simp only [ht, if_true] at h
      split at h
      · cases h
      · rename_i ha
        cases h
        refine ⟨fun he => ?_,ha⟩
        have hl := congrArg (fun s : String => s.toList.length) he
        simp at hl
    · simp only [ht, if_false] at h
      split at h
      · cases h
      · rename_i ha
        cases h
        exact ⟨ht,ha⟩

lemma resolveAsyncPath_ne (ha : e.path ≠ "") (pre : String) : resolveAsyncPath pre e ≠ "" := by
  intro h
  simp only [resolveAsyncPath, ha, if_false] at h
  have hl := congrArg (fun s : String => s.toList.length) h
  simp only [String.toList_append, List.length_append] at hl
  have hz : e.path.toList.length = 0 := by
    simp at hl
    simp [hl]
  exact ha (String.toList_injective (List.eq_nil_of_length_eq_zero hz))

lemma resolveAsyncStore_error {err : Failure} (h : svc.resolveAsyncStore e = .error err) :
    ∃ msg, err = .error msg := by
  unfold Service.resolveAsyncStore Service.resolvePGStore Service.resolveRedisStore
    Service.resolveNATSKVStore at h
  repeat' split at h
  all_goals first | exact ⟨_,(Except.error.inj h).symm⟩ | cases h

lemma registerOneEntry_unregistered (hpa : e.path ≠ "") (ha : e.handler ≠ "")
    (h : ¬Registered svc e) (pre : String) :
    ∃ msg, registerOneEntry svc pre e = .error (.error msg) := by
  unfold registerOneEntry
  cases ht : svc.resolveAsyncStore e with
  | error err =>
    obtain ⟨msg,rfl⟩ := resolveAsyncStore_error ht
    exact ⟨msg,rfl⟩
  | ok kind =>
    have hm : svc.handlers e.handler = false := by
      rw [Bool.eq_false_iff]
      exact fun ho => h ⟨⟨kind,ht⟩,ho⟩
    simp only [registerAsync, resolveAsyncPath_ne hpa pre, if_false, ha, hm, ne_eq,
      not_false_eq_true, and_self, if_true]
    exact ⟨_,rfl⟩

lemma registerOneEntry_registered (ha : e.path ≠ "") {kind : Kind}
    (ht : svc.resolveAsyncStore e = .ok kind) (ho : svc.handlers e.handler) (pre : String) :
    (∃ conf, e.asyncStore = some conf ∧ conf.reassign = none ∧
        registerOneEntry svc pre e = .error (.nilPointer "entry.AsyncStore.Reassign")) ∨
      ((∀ conf, e.asyncStore = some conf → conf.reassign ≠ none) ∧
        ∃ mgr, registerOneEntry svc pre e = .ok mgr ∧ mgr.kind = kind ∧
          mgr.callback = callbackSection e) := by
  simp only [registerOneEntry, ht, registerAsync, resolveAsyncPath_ne ha pre, if_false,
    ho, Bool.true_eq_false, and_false, callbackSection]
  cases e.asyncStore with
  | none => exact .inr ⟨by simp,_,rfl,rfl,rfl⟩
  | some conf =>
    cases he : conf.reassign with
    | none =>
      left
      exact ⟨conf,rfl,he,by simp [configure, he, follow]⟩
    | some r =>
      right
      refine ⟨by simp [he],_,by simp only [configure, he, follow]; rfl,rfl,rfl⟩

variable {R : Type}

lemma notifyTarget_of_section (cb : AsyncCallbackConf) (job : Option (JobState R)) :
    ∃ t, notifyTarget svc (some cb) job = .ok t := by
  cases job with
  | none => exact ⟨none,rfl⟩
  | some js =>
    simp only [notifyTarget, target, follow]
    split
    · split
      · exact ⟨none,rfl⟩
      · exact ⟨_,rfl⟩
    · exact ⟨_,rfl⟩

lemma notifyTarget_nil_iff {callback : Option AsyncCallbackConf} {job : Option (JobState R)} :
    (∃ expr, notifyTarget svc callback job = .error (.nilPointer expr)) ↔
      callback = none ∧ ∃ js, job = some js ∧ js.callbackURL ≠ "" := by
  cases job with
  | none => simp [notifyTarget]
  | some js =>
    cases callback with
    | none =>
      by_cases hu : js.callbackURL = ""
      · simp [notifyTarget, hu]
      · simp [notifyTarget, target, follow, hu]
    | some cb =>
      obtain ⟨t,ht⟩ := @notifyTarget_of_section svc _ cb (some js)
      simp [ht]

lemma getD_ne_iff (body : Body) : (bodyCallback body).getD "" ≠ "" ↔ AsksForCallback body := by
  unfold AsksForCallback
  cases bodyCallback body with
  | none => simp
  | some url => simp

lemma notifyTarget_url {callback : Option AsyncCallbackConf} {job : Option (JobState R)}
    {t : Target} (h : notifyTarget svc callback job = .ok (some t)) :
    0 ≤ t.maxRetry ∧ ∃ js cb, job = some js ∧ callback = some cb ∧ t.url ≠ "" ∧
      t.url = if js.callbackURL = "" then cb.url else js.callbackURL := by
  have ha : ∀ url secret, target svc callback url secret = .ok (some t) →
      0 ≤ t.maxRetry ∧ t.url = url ∧ ∃ cb, callback = some cb := by
    intro url secret ht
    cases callback with
    | none => cases ht
    | some cb =>
      cases ht
      refine ⟨?_,rfl,cb,rfl⟩
      dsimp only
      split_ifs <;> omega
  cases job with
  | none => cases h
  | some js =>
    simp only [notifyTarget] at h
    split at h
    · rename_i ho
      split at h
      · cases h
      · rename_i cb
        split_ifs at h with hu
        · cases h
        obtain ⟨hm,he,-⟩ := ha _ _ h
        exact ⟨hm,js,cb,rfl,rfl,he ▸ hu,by rw [if_pos ho, he]⟩
    · rename_i ho
      obtain ⟨hm,hu,cb,hb⟩ := ha _ _ h
      exact ⟨hm,js,cb,rfl,hb,hu ▸ ho,by rw [if_neg ho, hu]⟩

lemma finalRecord_url {body : Body} {mgr : Manager} {marshal : R → Option (Option R)} {w : World R}
    {jobs : GoMap (JobState R)} (he : jobs.lookup w.id = none) {js : JobState R}
    (h : finalRecord mgr (storeOf mgr marshal) w jobs body = some js) :
    js.callbackURL = if mgr.kind = .memory then (bodyCallback body).getD "" else "" := by
  split_ifs with hk
  · obtain ⟨js',hj',hu⟩ := @finalRecord_memory _ mgr marshal hk w jobs body
    rw [h] at hj'
    cases hj'
    exact hu
  · exact finalRecord_server hk he h

lemma update_answered {S : JobStore R} {jobs : GoMap (JobState R)} {id : String} {now : ℤ}
    {c : Change R} (hl : c.result = none) (h : ∃ js, jobs.lookup id = some js) :
    ∃ js, (update S jobs id now true c).lookup id = some js := by
  obtain ⟨js,hj⟩ := h
  have ho : ∃ js', (updateAtOnce S c now id jobs).lookup id = some js' := by
    rw [lookup_updateAtOnce, hj]
    exact ⟨_,rfl⟩
  have ha : ∃ js', (save S jobs id (c.apply S.processingTimeout now js)).lookup id = some js' :=
    ⟨_,lookup_save_plain hl⟩
  unfold update
  cases S.kind with
  | memory | postgres => exact ho
  | redis | nats => simpa only [hj] using ha

end

def plainJob : World Unit where
  id := "j_1"
  now _ := 0
  answered _ := true
  outcome := .ok none

lemma plainJob_record (mgr : Manager) (body : Body) :
    ∃ js, finalRecord mgr (storeOf mgr fun _ => none) plainJob [] body = some js ∧
      js.callbackURL = if mgr.kind = .memory then (bodyCallback body).getD "" else "" := by
  have hu : ∃ js : JobState Unit, (submit mgr (storeOf mgr fun _ => none) [] plainJob.id 0 true
      body).lookup plainJob.id = some js := by
    unfold submit
    split
    · exact ⟨_,lookup_set_self _⟩
    · exact ⟨_,lookup_set_self _⟩
  have ho := @update_answered _ (storeOf mgr fun _ => none) _ _ 0 JobSchedules.markProcessing rfl hu
  have hr : ∃ js, finalRecord mgr (storeOf mgr fun _ => none) plainJob [] body = some js :=
    update_answered rfl ho
  exact hr.imp fun _ hj => ⟨hj,finalRecord_url rfl hj⟩

theorem nilFree_iff {svc : Service} {e0 e : AsyncEntry} (hvalid : validateAsync e0 = .ok e)
    (pre : String) (body : Body) :
    NilFree svc pre e body ↔ (Registered svc e → Covered svc e body) := by
  obtain ⟨hpa,hl⟩ := validateAsync_path hvalid
  by_cases hg : Registered svc e
  · obtain ⟨⟨kind,ht⟩,hu⟩ := hg
    have hg : Registered svc e := ⟨⟨kind,ht⟩,hu⟩
    rcases registerOneEntry_registered hpa ht hu pre with
      ⟨conf,hco,hne,hn⟩ | ⟨hi,mgr,hn,hk,ha⟩
    · constructor
      · intro hfr
        exact absurd (by rw [lifecycle, hn])
          (hfr Unit (fun _ => none) plainJob [] rfl "entry.AsyncStore.Reassign")
      · intro ho
        exact absurd hne ((ho hg).reassign conf hco)
    · constructor
      · intro hfr _
        refine ⟨hi,fun hm has he => ?_⟩
        rw [ht] at hm
        cases hm
        obtain ⟨js,hj,hur⟩ := plainJob_record mgr body
        have hni : ∃ expr, notifyTarget svc mgr.callback
            (finalRecord mgr (storeOf mgr fun _ => none) plainJob [] body) =
            .error (.nilPointer expr) := by
          rw [notifyTarget_nil_iff, ha]
          exact ⟨he,js,hj,by rw [hur, if_pos hk]; exact (getD_ne_iff body).mpr has⟩
        obtain ⟨expr,hx⟩ := hni
        exact hfr Unit (fun _ => none) plainJob [] rfl expr (by rw [lifecycle, hn]; exact hx)
      · intro ho R marshal w jobs hfe expr hni
        rw [lifecycle, hn] at hni
        obtain ⟨he,js,hj,hur⟩ := notifyTarget_nil_iff.mp ⟨expr,hni⟩
        rw [ha] at he
        rw [finalRecord_url hfe hj] at hur
        split_ifs at hur with hm
        · refine (ho hg).callback ?_ ((getD_ne_iff body).mp hur) he
          rw [ht, ← hk, hm]
        · exact hur rfl
  · obtain ⟨msg,hn⟩ := registerOneEntry_unregistered hpa hl hg pre
    constructor
    · intro _ hr'
      exact absurd hr' hg
    · intro _ R marshal w jobs _ expr hni
      rw [lifecycle, hn] at hni
      cases hni

def reportService : Service where
  parseDuration _ := none
  pools _ := false
  kvConns _ := false
  brokers _ := none
  provision := false
  handlers name := name = "processReport"

def reportEntry : AsyncEntry := { path := "/jobs/reports", handler := "processReport" }

def callbackBody : Body := some [("_callback_url",.str "https://myapp.com/cb")]

theorem plain_body_nilFree : NilFree reportService "" reportEntry (some []) :=
  (@nilFree_iff reportService reportEntry reportEntry (by decide) "" (some [])).mpr fun _ =>
    ⟨by simp [reportEntry],by rintro - ⟨url,-,h⟩; simp [bodyCallback] at h⟩

/-- Without a store section a callback URL in the body, and with a store
section but no reassign section the registration, follow a nil pointer. -/
theorem missing_sections_nil :
    validateAsync reportEntry = .ok reportEntry ∧
      lifecycle reportService "" reportEntry (fun _ => none) plainJob [] callbackBody =
        .error (.nilPointer "m.callback") ∧
      lifecycle reportService ""
        { reportEntry with
          asyncStore := some { callback := some { url := "https://myapp.com/cb" } } }
        (fun _ => none) plainJob [] none = .error (.nilPointer "entry.AsyncStore.Reassign") := by
  refine ⟨by decide,?_,?_⟩
  · decide
  · decide

end SdkApi.AsyncNilSafety
