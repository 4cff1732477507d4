import SdkApi.LocalFiles
import SdkApi.TextReplace

/-!
# The cached storage

`Download` looks for a key in memory, then for a file of the cache directory,
and then asks the backend; `Upload` and `Delete` are those of the backend.
After an answer of the backend a goroutine stores it in memory and writes the
file, which is first created empty. These steps happen at any time, an entry
in memory may be dropped at any time, and no entry expires. The files are
known by their cleaned paths; no directories are created, so that a file can
be created only at some of the paths.
-/

namespace SdkApi.CachedFiles
open PathPatterns LexicalPaths TextReplace List Option Function

abbrev Bytes := List UInt8

abbrev Contents := String → Option Bytes

def sanitizeKey (key : String) : String :=
  String.ofList ((replaceAll dotdot [] key.toList).dropWhile (· = '/'))

/-- `fs.ValidPath` -/
def validPath (name : String) : Bool :=
  name = "." || (split name.toList).all fun s => s ≠ [] ∧ s ≠ dot ∧ s ≠ dotdot

/-- An empty path is that of no cache directory. -/
structure CachedStorage where
  ram : Bool
  path : String
  creatable : String → Bool

inductive Stage where
  | store
  | create
  | write
  | done
  deriving DecidableEq

structure Job where
  key : String
  data : Bytes
  stage : Stage

structure State where
  backend : Contents
  l1 : Contents
  disk : Contents
  jobs : List Job

inductive Call where
  | upload (key : String) (data : Bytes)
  | delete (key : String)
  | download (key : String)
  deriving DecidableEq

inductive Event where
  | call (c : Call)
  | job (n : ℕ) (ok : Bool)
  | evict (key : String)

section

variable (c : CachedStorage)

/-- `Cache.Set` does not change an entry that is there. -/
def l1Set (l1 : Contents) (key : String) (data : Bytes) : Contents :=
  if (l1 key).isSome then l1 else Function.update l1 key (some data)

/-- Where `Download` looks for a file. -/
def readPath (key : String) : Option String :=
  if c.path ≠ "" ∧ validPath (sanitizeKey key) then
    some (LocalFiles.Filepath.clean (c.path++"/"++sanitizeKey key))
  else none

def writePath (key : String) : String := LocalFiles.Filepath.join c.path (sanitizeKey key)

def download (s : State) (key : String) : Option Bytes × State :=
  match (if c.ram then s.l1 key else none) with
  | some data => (some data,s)
  | none =>
    match (readPath c key).bind s.disk with
    | some data => (some data,if c.ram then { s with l1 := l1Set s.l1 key data } else s)
    | none =>
      match s.backend key with
      | none => (none,s)
      | some data => (some data,{ s with jobs := s.jobs++[⟨key,data,.store⟩] })

def overwrite (old : Option Bytes) (data : Bytes) : Bytes := data++(old.getD []).drop data.length

/-- The goroutine's next step. `WriteFile` truncates the file when it opens it. -/
def advance (s : State) (j : Job) (ok : Bool) : State × Stage :=
  match j.stage with
  | .store => ({ s with l1 := if c.ram then l1Set s.l1 j.key j.data else s.l1 },
      if c.path = "" then .done else .create)
  | .create =>
    if ok ∧ c.creatable (writePath c j.key) then
      ({ s with disk := Function.update s.disk (writePath c j.key) (some []) },.write)
    else (s,.done)
  | .write =>
    let path := writePath c j.key
    if ok then
      ({ s with disk := Function.update s.disk path (some (overwrite (s.disk path) j.data)) },.done)
    else (s,.done)
  | .done => (s,.done)

def apply (b : Contents) : Call → Contents
  | .upload key data => Function.update b key (some data)
  | .delete key => Function.update b key none
  | .download _ => b

def step (s : State) : Event → State
  | .call (.download key) => (download c s key).2
  | .call call => { s with backend := apply s.backend call }
  | .job n ok =>
    match s.jobs[n]? with
    | some j =>
      { (advance c s j ok).1 with jobs := s.jobs.set n { j with stage := (advance c s j ok).2 } }
    | none => s
  | .evict key => { s with l1 := Function.update s.l1 key none }

def run (s : State) : List Event → State
  | [] => s
  | e::es => run (step c s e) es

def start (b : Contents) : State := ⟨b,fun _ => none,fun _ => none,[]⟩

def held (b : Contents) : List Call → Contents
  | [] => b
  | call::calls => held (apply b call) calls

def Event.calls : Event → List Call
  | .call c => [c]
  | .job _ _ => []
  | .evict _ => []

def callsOf (es : List Event) : List Call := es.flatMap Event.calls

variable (c : CachedStorage) (b : Contents)

def Transparent (calls : List Call) : Prop :=
  ∀ before key after, calls = before++.download key::after →
    ∀ es, callsOf es = before → (download c (run c (start b) es) key).1 = held b before key

def Found (calls : List Call) (key : String) (data : Bytes) : Prop :=
  ∃ before after, calls = before++.download key::after ∧ held b before key = some data

def Creates (key path : String) : Prop :=
  c.path ≠ "" ∧ c.creatable path = true ∧ writePath c key = path

/-- A download of `key` reads the file that one of `key'` has written. -/
def SharesFile (key key' : String) : Prop :=
  ∃ path, readPath c key = some path ∧ Creates c key' path

/-- A file is empty before it is written. -/
structure Coherent (calls : List Call) : Prop where
  memory : ∀ before key after, calls = before++.download key::after → c.ram = true →
    ∀ data, Found b before key data → held b before key = some data
  files : ∀ before key after, calls = before++.download key::after →
    ∀ key' data, Found b before key' data → SharesFile c key key' →
      data = [] ∧ held b before key = some []

end

section

variable {c : CachedStorage} {b : Contents}

lemma run_append (s : State) (es fs : List Event) : run c s (es++fs) = run c (run c s es) fs := by
  induction es generalizing s with
  | nil => rfl
  | cons e es ih => exact ih _

lemma held_append (calls more : List Call) : held b (calls++more) = held (held b calls) more := by
  induction calls generalizing b with
  | nil => rfl
  | cons call calls ih => exact ih

lemma callsOf_append (es fs : List Event) : callsOf (es++fs) = callsOf es++callsOf fs :=
  flatMap_append

lemma callsOf_map_call (calls : List Call) : callsOf (calls.map .call) = calls := by
  induction calls with
  | nil => rfl
  | cons call calls ih =>
    exact congrArg (call::·) ih

variable {l1 : Contents} {key : String}

lemma l1Set_some {key k : String} {data d : Bytes}
    (h : l1Set l1 key data k = some d) : l1 k = some d ∨ (k = key ∧ d = data) := by
  rw [l1Set] at h
  split at h
  · exact .inl h
  · rw [update_apply] at h
    split at h
    · rename_i hk
      exact .inr ⟨hk,(some.inj h).symm⟩
    · exact .inl h

lemma l1Set_keeps {k : String} {d : Bytes} (h : l1 k = some d) {key : String}
    {data : Bytes} : l1Set l1 key data k = some d := by
  rw [l1Set]
  split
  · exact h
  · rename_i hn
    have he : k ≠ key := by
      rintro rfl
      rw [h] at hn
      exact hn rfl
    rwa [update_of_ne he]

lemma l1Set_of_none (h : l1 key = none) (data : Bytes) : l1Set l1 key data key = some data := by
  rw [l1Set, if_neg (by simp [h]), update_self]

lemma Found.mono {calls : List Call} {data : Bytes}
    (h : Found b calls key data) (more : List Call) : Found b (calls++more) key data := by
  obtain ⟨before,after,rfl,he⟩ := h
  exact ⟨before,after++more,by simp,he⟩

end

section

variable (c : CachedStorage) (b : Contents) (calls : List Call)

structure Filed (path : String) (data : Bytes) : Prop where
  creator : ∃ key d, Found b calls key d ∧ Creates c key path
  content : data ≠ [] → ∃ key d, Found b calls key d ∧ Creates c key path ∧ d ≠ []

structure Traced (s : State) : Prop where
  backend : s.backend = held b calls
  found : ∀ j ∈ s.jobs, Found b calls j.key j.data
  creating : ∀ j ∈ s.jobs, j.stage = .create → c.path ≠ ""
  writing : ∀ j ∈ s.jobs, j.stage = .write → Creates c j.key (writePath c j.key)
  memory : ∀ key data, s.l1 key = some data → Found b calls key data ∨
    ∃ path, readPath c key = some path ∧ Filed c b calls path data
  files : ∀ path data, s.disk path = some data → Filed c b calls path data

variable {c b calls} {s : State} {data : Bytes}

lemma traced_start : Traced c b [] (start b) where
  backend := rfl
  found := nofun
  creating := nofun
  writing := nofun
  memory _ _ := nofun
  files _ _ := nofun

lemma Filed.mono {path : String} (h : Filed c b calls path data)
    (more : List Call) : Filed c b (calls++more) path data where
  creator := by
    obtain ⟨key,d,ho,he⟩ := h.creator
    exact ⟨key,d,ho.mono more,he⟩
  content hn := by
    obtain ⟨key,d,ho,he⟩ := h.content hn
    exact ⟨key,d,ho.mono more,he⟩

section

variable (h : Traced c b calls s) {data : Bytes}
include h

lemma Traced.call (call : Call) :
    Traced c b (calls++[call]) { s with backend := apply s.backend call } where
  backend := by rw [held_append, h.backend]; rfl
  found j hj := (h.found j hj).mono _
  creating := h.creating
  writing := h.writing
  memory key data ha := by
    rcases h.memory key data ha with ho | ⟨path,ht,hi⟩
    · exact .inl (ho.mono _)
    · exact .inr ⟨path,ht,hi.mono _⟩
  files path data ha := (h.files path data ha).mono _

lemma Traced.l1Set {key : String}
    (ha : Found b calls key data ∨ ∃ path, readPath c key = some path ∧ Filed c b calls path data) :
    Traced c b calls { s with l1 := l1Set s.l1 key data } := by
  refine { h with memory := fun k d hd => ?_ }
  rcases l1Set_some hd with hd | ⟨rfl,rfl⟩
  · exact h.memory k d hd
  · exact ha

lemma Traced.file {path : String} (ha : Filed c b calls path data) :
    Traced c b calls { s with disk := update s.disk path (some data) } := by
  refine { h with files := fun p d hd => ?_ }
  simp only [update_apply] at hd
  split at hd
  · cases hd
    rename_i ht
    rw [ht]
    exact ha
  · exact h.files p d hd

lemma Traced.jobs {jobs : List Job} (ho : ∀ j ∈ jobs, j ∈ s.jobs ∨ (Found b calls j.key j.data ∧
      (j.stage = .create → c.path ≠ "") ∧
      (j.stage = .write → Creates c j.key (writePath c j.key)))) :
    Traced c b calls { s with jobs := jobs } where
  backend := h.backend
  found j hj := (ho j hj).elim (h.found j) (·.1)
  creating j hj := (ho j hj).elim (h.creating j) (·.2.1)
  writing j hj := (ho j hj).elim (h.writing j) (·.2.2)
  memory := h.memory
  files := h.files

lemma Traced.advance {j : Job} (hj : j ∈ s.jobs) (ok : Bool) :
    Traced c b calls (advance c s j ok).1 ∧ (advance c s j ok).1.jobs = s.jobs ∧
      ((advance c s j ok).2 = .create → c.path ≠ "") ∧
      ((advance c s j ok).2 = .write → Creates c j.key (writePath c j.key)) := by
  have ho := h.found j hj
  simp only [CachedFiles.advance]
  cases ht : j.stage with
  | store =>
    refine ⟨?_,rfl,fun hcr => ?_,fun hi => ?_⟩
    · cases c.ram with
      | true => exact h.l1Set (.inl ho)
      | false => exact h
    · by_contra hpa
      simp [hpa] at hcr
    · simp only at hi
      split at hi <;> cases hi
  | create =>
    simp only
    split
    · rename_i hok
      have he : Creates c j.key (writePath c j.key) :=
        ⟨h.creating j hj ht,hok.2,rfl⟩
      refine ⟨h.file ⟨⟨j.key,j.data,ho,he⟩,fun hne => absurd rfl hne⟩,rfl,nofun,
        fun _ => he⟩
    · exact ⟨h,rfl,nofun,nofun⟩
  | write =>
    simp only
    have he := h.writing j hj ht
    split
    · refine ⟨h.file ⟨⟨j.key,j.data,ho,he⟩,fun hne => ?_⟩,rfl,nofun,nofun⟩
      by_cases ha : j.data = []
      · -- the rest of an older content is what makes the file not empty
        cases hl : s.disk (writePath c j.key) with
        | none => simp [overwrite, ha, hl] at hne
        | some old =>
          refine (h.files _ _ hl).content fun hn => ?_
          simp [overwrite, ha, hl, hn] at hne
      · exact ⟨j.key,j.data,ho,he,ha⟩
    · exact ⟨h,rfl,nofun,nofun⟩
  | done => exact ⟨h,rfl,nofun,nofun⟩

end

lemma download_cases (c : CachedStorage) (s : State) (key : String) :
    (∃ data, c.ram ∧ s.l1 key = some data ∧ download c s key = (some data,s)) ∨
    (∃ path data, readPath c key = some path ∧ s.disk path = some data ∧
      download c s key = (some data,if c.ram then { s with l1 := l1Set s.l1 key data } else s)) ∨
    ((download c s key).1 = s.backend key ∧ ((download c s key).2 = s ∨
      ∃ data, s.backend key = some data ∧
        (download c s key).2 = { s with jobs := s.jobs++[⟨key,data,.store⟩] })) := by
  rw [download]
  split
  · rename_i data hm
    split_ifs at hm with h
    exact .inl ⟨data,h,hm,rfl⟩
  · split
    · rename_i data hi
      obtain ⟨path,ht,ha⟩ := bind_eq_some_iff.mp hi
      exact .inr (.inl ⟨path,data,ht,ha,rfl⟩)
    · split
      · rename_i hn
        exact .inr (.inr ⟨hn.symm,.inl rfl⟩)
      · rename_i data ha
        exact .inr (.inr ⟨ha.symm,.inr ⟨data,ha,rfl⟩⟩)

lemma found_now {key : String} (h : held b calls key = some data) :
    Found b (calls++[.download key]) key data := ⟨calls,[],rfl,h⟩

lemma Traced.download (h : Traced c b calls s) (key : String) :
    Traced c b (calls++[.download key]) (download c s key).2 := by
  have ha : Traced c b (calls++[.download key]) s := h.call (.download key)
  rcases download_cases c s key with ⟨data,-,-,he⟩ | ⟨path,data,hpa,hi,he⟩ | ⟨-,he | ⟨data,ht,he⟩⟩
  · rwa [he]
  · rw [he]
    cases c.ram with
    | true => exact ha.l1Set (.inr ⟨path,hpa,ha.files path data hi⟩)
    | false => exact ha
  · rwa [he]
  · rw [he]
    rw [h.backend] at ht
    refine ha.jobs fun j hj => ?_
    rcases mem_append.mp hj with hj | hj
    · exact .inl hj
    · rw [mem_singleton.mp hj]
      exact .inr ⟨found_now ht,nofun,nofun⟩

lemma step_traced (h : Traced c b calls s) (e : Event) :
    Traced c b (calls++e.calls) (step c s e) := by
  cases e with
  | call call =>
    cases call with
    | download key => exact h.download key
    | upload key data | delete key => exact h.call _
  | evict key =>
    rw [Event.calls, append_nil]
    refine { h with memory := fun k d hd => ?_ }
    simp only [step, update_apply] at hd
    split at hd
    · cases hd
    · exact h.memory k d hd
  | job n ok =>
    rw [Event.calls, append_nil, step]
    cases ho : s.jobs[n]? with
    | none => exact h
    | some j =>
      have hj := mem_of_getElem? ho
      obtain ⟨hn,ha,he,hi⟩ := h.advance hj ok
      refine hn.jobs fun x hx => ?_
      rw [ha]
      rcases mem_or_eq_of_mem_set hx with hx | rfl
      · exact .inl hx
      · exact .inr ⟨h.found j hj,he,hi⟩

lemma run_traced (h : Traced c b calls s) (es : List Event) :
    Traced c b (calls++callsOf es) (run c s es) := by
  induction es generalizing s calls with
  | nil => rwa [callsOf, flatMap_nil, append_nil]
  | cons e es ih =>
    have hn := ih (step_traced h e)
    rwa [append_assoc] at hn

end

section

variable {c : CachedStorage} {b : Contents} {s : State} {data : Bytes}

structure Only (data : Bytes) (s : State) : Prop where
  memory : ∀ key d, s.l1 key = some d → d = data
  files : ∀ path d, s.disk path = some d → d = data

lemma Only.l1Set (h : Only data s) (key : String) :
    Only data { s with l1 := l1Set s.l1 key data } where
  memory k d hd := (l1Set_some hd).elim (h.memory k d) (·.2)
  files := h.files

structure Kept (data : Bytes) (s t : State) : Prop where
  only : Only data t
  disk : t.disk = s.disk
  memory : ∀ key, s.l1 key = some data → t.l1 key = some data

lemma Only.call (h : Only data s) (call : Call) : Kept data s (step c s (.call call)) := by
  cases call with
  | upload key d | delete key => exact ⟨⟨h.memory,h.files⟩,rfl,fun _ hk => hk⟩
  | download key =>
    rw [step]
    rcases download_cases c s key with ⟨d,-,-,he⟩ | ⟨path,d,-,hi,he⟩ | ⟨-,he | ⟨d,-,he⟩⟩
    · rw [he]
      exact ⟨h,rfl,fun _ hk => hk⟩
    · rw [he]
      cases h.files path d hi
      cases c.ram with
      | false => exact ⟨h,rfl,fun _ hk => hk⟩
      | true => exact ⟨h.l1Set key,rfl,fun _ hk => l1Set_keeps hk⟩
    · rw [he]
      exact ⟨h,rfl,fun _ hk => hk⟩
    · rw [he]
      exact ⟨⟨h.memory,h.files⟩,rfl,fun _ hk => hk⟩

lemma Only.calls (h : Only data s) (calls : List Call) :
    Kept data s (run c s (calls.map .call)) := by
  induction calls generalizing s with
  | nil => exact ⟨h,rfl,fun _ hk => hk⟩
  | cons call calls ih =>
    have hstep := h.call (c := c) call
    have he := ih hstep.only
    exact ⟨he.only,he.disk.trans hstep.disk,fun k hk => he.memory k (hstep.memory k hk)⟩

variable {key : String} {path : String} {n : ℕ} {before : List Call} {t : State}

lemma Only.answer (h : Only data s) (hk : (c.ram ∧ s.l1 key = some data) ∨
      ∃ path, readPath c key = some path ∧ s.disk path = some data) :
    (CachedFiles.download c s key).1 = some data := by
  rw [CachedFiles.download]
  cases hm : (if c.ram then s.l1 key else none) with
  | some d =>
    split_ifs at hm
    rw [h.memory key d hm]
  | none =>
    rcases hk with ⟨hc,hl⟩ | ⟨path,ha,hi⟩
    · rw [if_pos hc, hl] at hm
      cases hm
    · rw [ha, bind_some, hi]

structure Cold (s : State) : Prop where
  memory : ∀ key, s.l1 key = none
  files : ∀ path, s.disk path = none

lemma Cold.only (h : Cold s) (data : Bytes) : Only data s where
  memory key d hd := by rw [h.memory] at hd; cases hd
  files path d hd := by rw [h.files] at hd; cases hd

lemma Cold.file (h : Cold s) (hl : t.l1 = s.l1)
    (hi : t.disk = update s.disk path (some data)) : Only data t where
  memory key d hd := by
    rw [hl, h.memory] at hd
    cases hd
  files p d hd := by
    rw [hi, update_apply] at hd
    split at hd
    · exact (some.inj hd).symm
    · rw [h.files] at hd
      cases hd

lemma Cold.calls (h : Cold s) (calls : List Call) : Cold (run c s (calls.map .call)) := by
  -- a content that the caches held would be every content
  have hk := fun d => (h.only d).calls (c := c) calls
  refine ⟨fun key => ?_,fun path => ?_⟩
  · refine eq_none_iff_forall_ne_some.mpr fun d hd => ?_
    have ha := (hk (0::d)).only.memory key d hd
    simp at ha
  · rw [(hk []).disk]
    exact h.files path

lemma job_step {j : Job} (hj : s.jobs[n]? = some j) (ok : Bool) :
    step c s (.job n ok) = { (advance c s j ok).1 with
      jobs := s.jobs.set n { j with stage := (advance c s j ok).2 } } := by
  rw [step, hj]

lemma job_waits (ha : held b before key = some data) :
    ∃ n : ℕ, (run c (start b) ((before++[Call.download key]).map .call)).jobs[n]? =
      some (Job.mk key data .store) := by
  have hl : Cold (start b) := ⟨fun _ => rfl,fun _ => rfl⟩
  have hb := hl.calls (c := c) before
  have ht := run_traced (traced_start (c := c) (b := b)) (before.map .call)
  rw [callsOf_map_call, nil_append] at ht
  rw [map_append, run_append]
  generalize run c (start b) (before.map .call) = s at hb ht
  refine ⟨s.jobs.length,?_⟩
  have ho : download c s key = (some data,{ s with jobs := s.jobs++[⟨key,data,.store⟩] }) := by
    have hi : (readPath c key).bind s.disk = none := by
      cases readPath c key with
      | none => rfl
      | some path => exact hb.files path
    have hm : (if c.ram then s.l1 key else none) = none := by rw [hb.memory key, ite_self]
    rw [download, hm, hi, ht.backend, ha]
  simp only [map_singleton, run, step, ho, getElem?_concat_length]

lemma job_next {j : Job} (hj : s.jobs[n]? = some j) (ok : Bool) :
    (step c s (.job n ok)).jobs[n]? = some { j with stage := (advance c s j ok).2 } := by
  rw [job_step hj, getElem?_set_self (List.getElem?_eq_some_iff.mp hj).1]

lemma store_step (ho : Cold s) (hj : s.jobs[n]? = some ⟨key,data,.store⟩) :
    Only data (step c s (.job n true)) ∧
      (c.ram → (step c s (.job n true)).l1 key = some data) ∧
      Cold (step c (step c s (.job n true)) (.evict key)) := by
  rw [job_step hj]
  have he := (ho.only data).l1Set key
  cases ha : c.ram with
  | true =>
    have hl : (advance c s ⟨key,data,.store⟩ true).1 =
        { s with l1 := l1Set s.l1 key data } := by rw [advance, ha]; rfl
    rw [hl]
    refine ⟨⟨he.memory,he.files⟩,fun _ => l1Set_of_none (ho.memory key) data,
      fun k => ?_,ho.files⟩
    simp only [step, update_apply]
    split_ifs with hk
    · rfl
    · refine eq_none_iff_forall_ne_some.mpr fun d hd => ?_
      rcases l1Set_some hd with hd | ⟨rfl,-⟩
      · rw [ho.memory] at hd
        cases hd
      · exact hk rfl
  | false =>
    have hl : (advance c s ⟨key,data,.store⟩ true).1 = s := by rw [advance, ha]; rfl
    rw [hl]
    refine ⟨⟨(ho.only data).memory,(ho.only data).files⟩,nofun,fun k => ?_,ho.files⟩
    simp only [step, update_apply, ho.memory, ite_self]

lemma create_step {key path : String} (hj : s.jobs[n]? = some ⟨key,data,.create⟩)
    (ha : Creates c key path) :
    (step c s (.job n true)).l1 = s.l1 ∧
      (step c s (.job n true)).disk = update s.disk path (some []) ∧
      (step c s (.job n true)).jobs[n]? = some ⟨key,data,.write⟩ := by
  obtain ⟨-,he,rfl⟩ := ha
  have ht : advance c s ⟨key,data,.create⟩ true =
      ({ s with disk := update s.disk (writePath c key) (some []) },.write) := by
    simp only [advance, he, and_self, if_true]
  rw [job_next hj, job_step hj, ht]
  exact ⟨rfl,rfl,rfl⟩

lemma write_step (hj : s.jobs[n]? = some ⟨key,data,.write⟩) :
    (step c s (.job n true)).l1 = s.l1 ∧
      (step c s (.job n true)).disk = update s.disk (writePath c key)
        (some (overwrite (s.disk (writePath c key)) data)) := by
  have hi : (advance c s ⟨key,data,.write⟩ true).1 =
      { s with
        disk := update s.disk (writePath c key)
          (some (overwrite (s.disk (writePath c key)) data)) } := by simp only [advance, if_true]
  rw [job_step hj, hi]
  exact ⟨rfl,rfl⟩

variable {calls : List Call} {key key' : String}

lemma callsOf_schedule (before after : List Call) {call : Call} (steps : List Event)
    (h : callsOf steps = []) :
    callsOf ((before++[call]).map .call++(steps++after.map .call)) = before++call::after := by
  rw [callsOf_append, callsOf_append, callsOf_map_call, callsOf_map_call, h]
  simp

lemma memory_schedule (ho : Found b calls key data) (hm : c.ram) :
    ∃ es, callsOf es = calls ∧ (download c (run c (start b) es) key).1 = some data := by
  obtain ⟨before,after,rfl,ha⟩ := ho
  obtain ⟨n,hj⟩ := job_waits (c := c) ha
  have hl : Cold (start b) := ⟨fun _ => rfl,fun _ => rfl⟩
  obtain ⟨hn,ht,-⟩ := store_step (hl.calls _) hj
  have hk := hn.calls (c := c) after
  refine ⟨_,callsOf_schedule before after [.job n true] rfl,?_⟩
  rw [run_append]
  exact hk.only.answer (.inl ⟨hm,hk.memory key (ht hm)⟩)

lemma file_created (ha : held b before key' = some data) (he : Creates c key' path) :
    ∃ (n : ℕ) (s : State), Cold s ∧
      run c (run c (start b) ((before++[Call.download key']).map .call))
        [.job n true,.evict key'] = s ∧ s.jobs[n]? = some (Job.mk key' data .create) := by
  obtain ⟨n,hj⟩ := job_waits (c := c) ha
  have ho : Cold (start b) := ⟨fun _ => rfl,fun _ => rfl⟩
  obtain ⟨-,-,hi⟩ := store_step (c := c) (ho.calls _) hj
  refine ⟨n,_,hi,rfl,?_⟩
  have hn := job_next (c := c) hj true
  rw [advance] at hn
  simp only [if_neg he.1] at hn
  exact hn

lemma Cold.read_file (h : Cold s) (hl : t.l1 = s.l1)
    (hi : t.disk = update s.disk path (some data)) (he : readPath c key = some path)
    (after : List Call) : (download c (run c t (after.map .call)) key).1 = some data := by
  have hk := (h.file hl hi).calls (c := c) after
  refine hk.only.answer (.inr ⟨path,he,?_⟩)
  rw [hk.disk, hi, update_self]

lemma file_schedule (hu : Found b calls key' data) (hsh : SharesFile c key key') :
    (∃ es, callsOf es = calls ∧ (download c (run c (start b) es) key).1 = some []) ∧
      ∃ es, callsOf es = calls ∧ (download c (run c (start b) es) key).1 = some data := by
  obtain ⟨before,after,rfl,ht⟩ := hu
  obtain ⟨path,hre,he⟩ := hsh
  obtain ⟨n,s,ho,hrun,hj⟩ := file_created ht he
  obtain ⟨hl1,hi,hn⟩ := create_step hj he
  obtain ⟨hl',hd'⟩ := write_step (c := c) hn
  rw [he.2.2, hi, update_self, update_idem] at hd'
  have hl : overwrite (some []) data = data := by simp [overwrite]
  rw [hl] at hd'
  constructor
  · refine ⟨_,callsOf_schedule before after [.job n true,.evict key',.job n true] rfl,?_⟩
    rw [run_append]
    have ha := ho.read_file hl1 hi hre after
    rw [← hrun] at ha
    exact ha
  · refine ⟨_,callsOf_schedule before after
      [.job n true,.evict key',.job n true,.job n true] rfl,?_⟩
    rw [run_append]
    have ha := ho.read_file (hl'.trans hl1) hd' hre after
    rw [← hrun] at ha
    exact ha

end

section

variable (c : CachedStorage) (b : Contents) (calls : List Call)

def Call.key : Call → String
  | .upload key _ => key
  | .delete key => key
  | .download key => key

variable {key : String}

lemma apply_other {call : Call} (h : call.key ≠ key) : apply b call key = b key := by
  cases call with
  | upload k data | delete k => exact update_of_ne (Ne.symm h) _ _
  | download k => rfl

lemma held_congr {b b' : Contents} (h : b key = b' key) :
    held b calls key = held b' (calls.filter (·.key = key)) key := by
  induction calls generalizing b b' with
  | nil => exact h
  | cons call calls ih =>
    by_cases hk : call.key = key
    · rw [filter_cons_of_pos (by simp [hk])]
      refine ih ?_
      cases call with
      | upload k data | delete k =>
        cases hk
        simp [apply, Call.key]
      | download k => exact h
    · rw [filter_cons_of_neg (by simp [hk])]
      exact ih ((apply_other b hk).trans h)

variable {c b calls}

lemma Coherent.answer (h : Coherent c b calls) {before after : List Call}
    (ha : calls = before++.download key::after) {s : State} (hs : Traced c b before s) :
    (download c s key).1 = held b before key := by
  have hfi : ∀ path data, readPath c key = some path → Filed c b before path data →
      data = [] ∧ held b before key = some [] := by
    intro path data hre hi
    obtain ⟨key',d,ho,he⟩ := hi.creator
    refine ⟨by_contra fun hn => ?_, (h.files before key after ha key' d ho ⟨path,hre,he⟩).2⟩
    obtain ⟨key'',d',hf',hc',hd'⟩ := hi.content hn
    exact hd' (h.files before key after ha key'' d' hf' ⟨path,hre,hc'⟩).1
  rcases download_cases c s key with ⟨data,hm,hl1,hq⟩ | ⟨path,data,ht,hk,hq⟩ | ⟨hq,-⟩
  · rw [hq]
    rcases hs.memory key data hl1 with ho | ⟨path,ht,hi⟩
    · exact (h.memory before key after ha hm data ho).symm
    · obtain ⟨rfl,hl⟩ := hfi path data ht hi
      exact hl.symm
  · rw [hq]
    obtain ⟨rfl,hl⟩ := hfi path data ht (hs.files path data hk)
    exact hl.symm
  · rw [hq, hs.backend]

lemma Transparent.coherent (h : Transparent c b calls) : Coherent c b calls where
  memory before key after ha hm data ho := by
    obtain ⟨es,hes,hn⟩ := memory_schedule ho hm
    rw [← h before key after ha es hes, hn]
  files before key after ha key' data ho hsh := by
    obtain ⟨⟨es,hes,he⟩,fs,hfs,hu⟩ := file_schedule ho hsh
    rw [h before key after ha es hes] at he
    rw [h before key after ha fs hfs, he] at hu
    exact ⟨(some.inj hu).symm,he⟩

end

/-- For every cache, content of the backend and sequence of calls: each download returns what
the backend holds exactly when the calls are coherent, and then what it returns depends on the
calls for its key alone. -/
theorem transparent_iff_coherent (c : CachedStorage) (b : Contents) (calls : List Call) :
    (Transparent c b calls ↔ Coherent c b calls) ∧
    (Coherent c b calls → ∀ before key after, calls = before++.download key::after →
      ∀ es, callsOf es = before → (download c (run c (start b) es) key).1 =
        held b (before.filter (·.key = key)) key) := by
  have hn : Coherent c b calls → Transparent c b calls := by
    intro h before key after ha es he
    have ht := run_traced (traced_start (c := c) (b := b)) es
    rw [he, nil_append] at ht
    exact h.answer ha ht
  refine ⟨⟨Transparent.coherent,hn⟩,fun h before key after ha es he => ?_⟩
  rw [hn h before key after ha es he]
  exact held_congr before rfl

/-- In memory a content stays that has been replaced. In a file a content appears under another
key, and an empty one before the file is written. -/
theorem stale_foreign_and_empty_content :
    (download ⟨true,"",fun _ => true⟩ (run ⟨true,"",fun _ => true⟩ (start fun _ => none)
      [.call (.upload "k" [1]),.call (.download "k"),.job 0 true,.call (.upload "k" [2])]) "k").1 =
        some [1] ∧
    held (fun _ => none) [.upload "k" [1],.download "k",.upload "k" [2]] "k" = some [2] ∧
    (download ⟨false,"/cache",fun _ => true⟩ (run ⟨false,"/cache",fun _ => true⟩
      (start fun _ => none) [.call (.upload "a..b" [1]),.call (.upload "ab" [2]),
        .call (.download "a..b"),.job 0 true,.job 0 true,.job 0 true]) "ab").1 = some [1] ∧
    held (fun _ => none) [.upload "a..b" [1],.upload "ab" [2],.download "a..b"] "ab" = some [2] ∧
    (download ⟨false,"/cache",fun _ => true⟩ (run ⟨false,"/cache",fun _ => true⟩
      (start fun _ => none) [.call (.upload "k" [1]),.call (.download "k"),.job 0 true,
        .job 0 true]) "k").1 = some [] ∧
    held (fun _ => none) [.upload "k" [1],.download "k"] "k" = some [1] := by
  decide

end SdkApi.CachedFiles
