import SdkApi.EntryOptions

/-!
# Uploads to file entries

A file entry bounds the types, the size and the number of the files it takes.
All of these checks are in one validator, which `registerFile` mounts in front
of the route when types or a size are given and the method is written in upper
case.
-/

namespace SdkApi.FileUploads
open GoStrings RouterStack EntryOptions List Option
open CrudRoutes (bind_ok)

def digitsValue (ds : List Char) : ℕ := ds.foldl (fun n c => 10*n+(c.toNat-48)) 0

/-- What follows the digits is not read. -/
def scanInt (s : List Char) : Option ℤ :=
  let negative := s.head? = some '-'
  let digits := (if negative ∨ s.head? = some '+' then s.tail else s).takeWhile Char.isDigit
  if digits = [] then none
  else
    let n : ℤ := if negative then -digitsValue digits else digitsValue digits
    if -0x8000000000000000 ≤ n ∧ n < 0x8000000000000000 then some n else none

def sizeUnit (s : String) : String × ℕ :=
  if hasSuffix s "mb" then (trimSuffix s "mb",1024*1024)
  else if hasSuffix s "kb" then (trimSuffix s "kb",1024)
  else if hasSuffix s "gb" then (trimSuffix s "gb",1024*1024*1024)
  else if hasSuffix s "b" then (trimSuffix s "b",1)
  else (s,1)

/-- `0x8000000000000000` is the first number that has no place. -/
def wrapInt (n : ℤ) : ℤ := (n+0x8000000000000000)%0x10000000000000000-0x8000000000000000

def parseMaxSize (s : String) : ℤ :=
  let s := toLower (trimSpace s)
  if s = "" then 0
  else
    match scanInt (sizeUnit s).1.toList with
    | none => 0
    | some n => if n < 0 then 0 else wrapInt (n*(sizeUnit s).2)

def sizeOf (s : String) : Option ℕ :=
  let s := toLower (trimSpace s)
  if s = "" then none
  else (scanInt (sizeUnit s).1.toList).bind fun n =>
    if n < 0 then none else some (n.toNat*(sizeUnit s).2)

lemma parseMaxSize_eq (s : String) : parseMaxSize s = (sizeOf s).elim 0 fun n : ℕ => wrapInt n := by
  simp only [parseMaxSize, sizeOf]
  split_ifs
  · rfl
  · cases scanInt (sizeUnit (toLower (trimSpace s))).1.toList with
    | none => rfl
    | some n =>
      dsimp only
      rw [bind_some]
      split_ifs with hn
      · rfl
      · rw [elim_some, Int.natCast_mul, Int.toNat_of_nonneg (not_lt.mp hn)]

lemma wrapInt_le (n : ℕ) (h : 0 < wrapInt n) : wrapInt n ≤ n := by
  unfold wrapInt at *
  omega

lemma wrapInt_nonpos (n : ℕ) (h : wrapInt n ≤ 0) : n = 0 ∨ 0x8000000000000000 ≤ n := by
  unfold wrapInt at *
  omega

def matchContentType (contentType allowed : String) : Bool :=
  if contentType = allowed then true
  else if hasSuffix allowed "/*" then hasPrefix contentType (trimSuffix allowed "/*" ++ "/")
  else false

def isContentTypeAllowed (contentType : String) (allowed : List String) : Bool :=
  allowed.any (matchContentType contentType)

def TypeAllowed (contentType : String) (allowed : List String) : Prop :=
  contentType ∈ allowed ∨ ∃ main sub, main ++ "/*" ∈ allowed ∧ contentType = main ++ "/" ++ sub

lemma matchContentType_iff (contentType allowed : String) :
    matchContentType contentType allowed ↔ contentType = allowed ∨
      ∃ main sub, main ++ "/*" = allowed ∧ contentType = main ++ "/" ++ sub := by
  unfold matchContentType
  split_ifs with he hu
  · simp [he]
  · obtain ⟨main,rfl⟩ := (hasSuffix_iff _).mp hu
    rw [trimSuffix_append, hasPrefix_iff]
    constructor
    · rintro ⟨sub,hb⟩
      exact .inr ⟨main,sub,rfl,hb⟩
    · rintro (h | ⟨main',sub,hm,hb⟩)
      · exact absurd h he
      · rw [String.append_left_inj] at hm
        exact ⟨sub,hm ▸ hb⟩
  · simp only [false_iff, not_or]
    refine ⟨he,?_⟩
    rintro ⟨main,sub,hm,-⟩
    exact hu ((hasSuffix_iff _).mpr ⟨main,hm.symm⟩)

lemma isContentTypeAllowed_iff {contentType : String} {allowed : List String} :
    isContentTypeAllowed contentType allowed ↔ TypeAllowed contentType allowed := by
  simp only [isContentTypeAllowed, List.any_eq_true, matchContentType_iff, TypeAllowed]
  constructor
  · rintro ⟨a,ha,rfl | ⟨main,sub,rfl,hu⟩⟩
    · exact .inl ha
    · exact .inr ⟨main,sub,ha,hu⟩
  · rintro (h | ⟨main,sub,hm,hu⟩)
    · exact ⟨_,h,.inl rfl⟩
    · exact ⟨_,hm,.inr ⟨main,sub,rfl,hu⟩⟩

section

structure StorageConf where
  mode : String
  path : String

def validateFile (e : EntryDef) (storage : Option StorageConf) : Except String Unit :=
  if e.method = "" then .error "file: method is required"
  else if e.path = "" then .error "file: path is required"
  else if e.handler = "" then .error "file: handler is required"
  else
    match storage with
    | none => .error "file: storage is required"
    | some st =>
      if st.mode ≠ "s3" ∧ st.mode ≠ "local" then
        .error ("file: storage.mode must be s3 or local (got \"" ++ st.mode ++ "\")")
      else if st.mode = "local" ∧ st.path = "" then
        .error "file: storage.path is required for mode=local"
      else .ok ()

structure FileEntry extends toDef : EntryDef where
  storage : Option StorageConf
  isFile : kind = .file
  accepted : validateFile toDef storage = .ok ()

structure Form where
  file : List (String × List String)
  keyed : (file.map Prod.fst).Nodup

def Form.files (form : Form) : ℕ := (form.file.flatMap Prod.snd).length

structure Upload extends Request where
  contentType : String
  body : List UInt8
  addressable : body.length < 0x8000000000000000

/-- `MultipartForm` and `http.DetectContentType`. -/
structure Host where
  multipartForm : Upload → Option Form
  detectContentType : List UInt8 → String

variable (host : Host) (entry : EntryDef) (u : Upload)

def tooManyFiles : Bool :=
  0 < entry.maxFiles && (host.multipartForm u).any fun form => entry.maxFiles < form.file.length

def fileValidator : Except (ℕ × String) Unit :=
  if entry.allowedTypes ≠ [] ∧ ¬isContentTypeAllowed u.contentType entry.allowedTypes then
    .error (415,"content-type not allowed")
  else if entry.maxSize ≠ "" ∧ 0 < parseMaxSize entry.maxSize ∧
      parseMaxSize entry.maxSize < u.body.length then
    .error (413,"request body too large")
  else if tooManyFiles host entry u then .error (413,"too many files")
  else if entry.magicBytes ∧ 512 < u.body.length ∧
      ¬isContentTypeAllowed (host.detectContentType u.body) entry.allowedTypes then
    .error (415,"content-type not allowed")
  else .ok ()

structure Validated : Prop where
  types : entry.allowedTypes ≠ [] → TypeAllowed u.contentType entry.allowedTypes
  size : entry.maxSize ≠ "" → 0 < parseMaxSize entry.maxSize →
    u.body.length ≤ parseMaxSize entry.maxSize
  fields : 0 < entry.maxFiles → ∀ form, host.multipartForm u = some form →
    form.file.length ≤ entry.maxFiles
  magic : entry.magicBytes → 512 < u.body.length →
    TypeAllowed (host.detectContentType u.body) entry.allowedTypes

variable {host entry u}

lemma validated_of_ok (h : fileValidator host entry u = .ok ()) : Validated host entry u := by
  unfold fileValidator at h
  split_ifs at h with ht hz hi ha
  simp only [isContentTypeAllowed_iff] at ht ha
  constructor
  · intro hn
    by_contra hc
    exact ht ⟨hn,hc⟩
  · intro hn hpo
    by_contra hc
    exact hz ⟨hn,hpo,not_le.mp hc⟩
  · intro hpo form ho
    by_contra hc
    exact hi (by simp [tooManyFiles, hpo, ho, not_le.mp hc])
  · intro hm hl
    by_contra hc
    exact ha ⟨hm,hl,hc⟩

end

section

variable (host : Host) (entries : List EntryDef) (u : Upload)

/-- Every other option lets the request through here. -/
def runOption (at_ : ℕ × Opt) : Except (ℕ × String) Unit :=
  match at_.2, entries[at_.1]? with
  | .file, some entry => fileValidator host entry u
  | _, _ => .ok ()

def deliver (stack : Stack) : Option (Except (ℕ × String) ℕ) :=
  (serve u.toRequest (stack.map Item.added)).map fun out =>
    (out.1.forM (runOption host entries u)).map fun _ => out.2

variable {host entries u}

lemma forM_ok {α : Type} {f : α → Except (ℕ × String) Unit} {xs : List α}
    (h : xs.forM f = .ok ()) : ∀ x ∈ xs, f x = .ok () := by
  induction xs with
  | nil => nofun
  | cons x xs ih =>
    obtain ⟨_,hx,hxs⟩ := bind_ok h
    exact forall_mem_cons.mpr ⟨hx,ih hxs⟩

lemma validated_of_delivered {svc : Service} {stack : Stack}
    (hok : registerEntries svc 0 entries = .ok stack) {k : ℕ} {entry : EntryDef}
    (hk : entries[k]? = some entry) (hd : deliver host entries u stack = some (.ok k))
    (hm : mounted svc entry .file) : Validated host entry u := by
  simp only [deliver, map_eq_some_iff] at hd
  obtain ⟨out,he,hrun⟩ := hd
  cases hf : out.1.forM (runOption host entries u) with
  | error e =>
    rw [hf] at hrun
    cases hrun
  | ok _ =>
    rw [hf] at hrun
    cases hrun
    have ha := ((blocks_of_registered hok).added.mem_ran he).2 out.2 .file
    have hme : (out.2,Opt.file) ∈ out.1 := by
      refine ha.mpr ⟨entry,?_,hm,.inr ⟨rfl,by decide⟩⟩
      exact mk_mem_zipIdx_iff_getElem?.mpr hk
    have := forM_ok hf _ hme
    rw [runOption, hk] at this
    exact validated_of_ok this

end

section

variable (host : Host) (svc : Service) (entry : EntryDef) (u : Upload)

structure Enforced : Prop where
  types : entry.allowedTypes ≠ [] → TypeAllowed u.contentType entry.allowedTypes
  size : entry.maxSize ≠ "" → ∃ n, sizeOf entry.maxSize = some n ∧ u.body.length ≤ n
  files : 0 < entry.maxFiles → ∀ form, host.multipartForm u = some form →
    form.files ≤ entry.maxFiles
  magic : entry.magicBytes → entry.allowedTypes = [] ∨
    TypeAllowed (host.detectContentType u.body) entry.allowedTypes

/-- What nothing in front of the handler makes sure of. -/
structure Unchecked : Prop where
  types : ¬mounted svc entry .file → entry.allowedTypes ≠ [] →
    TypeAllowed u.contentType entry.allowedTypes
  size : entry.maxSize ≠ "" → ∃ n, sizeOf entry.maxSize = some n ∧
    (¬mounted svc entry .file ∨ n = 0 → u.body.length ≤ n)
  files : 0 < entry.maxFiles → ∀ form, host.multipartForm u = some form →
    (¬mounted svc entry .file ∨ ∃ field ∈ form.file, 1 < field.2.length) →
    form.files ≤ entry.maxFiles
  magic : entry.magicBytes → (¬mounted svc entry .file ∨ u.body.length ≤ 512) →
    entry.allowedTypes = [] ∨ TypeAllowed (host.detectContentType u.body) entry.allowedTypes

variable {host svc entry u}

lemma Form.files_le_fields (form : Form) (h : ∀ field ∈ form.file, field.2.length ≤ 1) :
    form.files ≤ form.file.length := by
  unfold Form.files
  generalize form.file = fields at h
  induction fields with
  | nil => rfl
  | cons field fields ih =>
    rw [forall_mem_cons] at h
    have := ih h.2
    simp only [flatMap_cons, length_append, length_cons]
    omega

lemma size_of_validated (hv : Validated host entry u) (he : entry.maxSize ≠ "") {n : ℕ}
    (hn : sizeOf entry.maxSize = some n) (ho : n ≠ 0) : u.body.length ≤ n := by
  have hq : parseMaxSize entry.maxSize = wrapInt n := by rw [parseMaxSize_eq, hn, elim_some]
  by_cases hw : 0 < wrapInt n
  · have hl := hv.size he (hq ▸ hw)
    have := wrapInt_le n hw
    omega
  · -- The product has overflowed, so the size is beyond every body.
    have := wrapInt_nonpos n (not_lt.mp hw)
    have := u.addressable
    omega

lemma enforced_of_unchecked (hv : mounted svc entry .file → Validated host entry u)
    (h : Unchecked host svc entry u) : Enforced host entry u := by
  by_cases hm : mounted svc entry .file
  · have hv := hv hm
    constructor
    · exact hv.types
    · intro hne
      obtain ⟨n,hn,hl⟩ := h.size hne
      refine ⟨n,hn,?_⟩
      by_cases hz : n = 0
      · exact hl (.inr hz)
      · exact size_of_validated hv hne hn hz
    · intro hpo form ho
      by_cases he : ∃ field ∈ form.file, 1 < field.2.length
      · exact h.files hpo form ho (.inr he)
      · have hle := form.files_le_fields (by simpa using he)
        have := hv.fields hpo form ho
        omega
    · intro ha
      by_cases hln : 512 < u.body.length
      · exact .inr (hv.magic ha hln)
      · exact h.magic ha (.inr (not_lt.mp hln))
  · constructor
    · exact h.types hm
    · intro hne
      obtain ⟨n,hn,hl⟩ := h.size hne
      exact ⟨n,hn,hl (.inl hm)⟩
    · exact fun hpo form ho => h.files hpo form ho (.inl hm)
    · exact fun ha => h.magic ha (.inl hm)

lemma unchecked_of_enforced (h : Enforced host entry u) : Unchecked host svc entry u where
  types _ := h.types
  size he := by
    obtain ⟨n,hn,hl⟩ := h.size he
    exact ⟨n,hn,fun _ => hl⟩
  files hpo form ho _ := h.files hpo form ho
  magic hm _ := h.magic hm

/-- A request at the handler of a file entry keeps what the entry promises
exactly if it does by itself what nothing has checked. -/
theorem enforced_iff_unchecked (host : Host) (svc : Service) (entries : List EntryDef)
    (stack : Stack) (hok : registerEntries svc 0 entries = .ok stack) (k : ℕ) (file : FileEntry)
    (hk : entries[k]? = some file.toDef) (u : Upload)
    (hd : deliver host entries u stack = some (.ok k)) :
    Enforced host file.toDef u ↔ Unchecked host svc file.toDef u :=
  ⟨unchecked_of_enforced, enforced_of_unchecked fun hm => validated_of_delivered hok hk hd hm⟩

def sampleFile (method : String) (hm : method ≠ "") (types : List String) (size : String)
    (files : ℤ) (magic : Bool) : FileEntry where
  model := ""
  path := "/files"
  crud := { tenantField := "" }
  kind := .file
  method := method
  handler := "h"
  allowedTypes := types
  maxSize := size
  maxFiles := files
  magicBytes := magic
  located := nofun
  storage := some ⟨"s3",""⟩
  isFile := rfl
  accepted := by simp [validateFile, hm]

def sampleHost : Host where
  multipartForm _ := some ⟨[("docs",["a.txt","b.txt"])],List.nodup_singleton _⟩
  detectContentType _ := "text/plain; charset=utf-8"

def sampleUpload (contentType : String) : Upload where
  method := "POST"
  path := "/api/v1/files".toList
  contentType := contentType
  body := [104,105]
  addressable := by decide

def textFile : FileEntry := sampleFile "POST" (by decide) ["text/*"] "1KB" 0 false

theorem enforced_iff_unchecked_text :
    ∃ stack, registerEntries plainService 0 [textFile.toDef] = .ok stack ∧
      deliver sampleHost [textFile.toDef] (sampleUpload "text/plain") stack = some (.ok 0) ∧
      (Enforced sampleHost textFile.toDef (sampleUpload "text/plain") ↔
        Unchecked sampleHost plainService textFile.toDef (sampleUpload "text/plain")) :=
  ⟨_,rfl,by decide,enforced_iff_unchecked sampleHost plainService [textFile.toDef] _ rfl 0 textFile
    rfl (sampleUpload "text/plain") (by decide)⟩

def Escapes (file : FileEntry) (u : Upload) : Prop :=
  (∃ stack, registerEntries plainService 0 [file.toDef] = .ok stack ∧
    deliver sampleHost [file.toDef] u stack = some (.ok 0)) ∧ ¬Enforced sampleHost file.toDef u

/-- A method in lower case, a second file in a field, a size that is none and
the type of a short body. -/
theorem uploads_escape :
    Escapes (sampleFile "post" (by decide) ["image/png"] "" 0 false) (sampleUpload "text/plain") ∧
      Escapes (sampleFile "POST" (by decide) ["multipart/*"] "" 1 false)
        (sampleUpload "multipart/form-data; boundary=x") ∧
      Escapes (sampleFile "POST" (by decide) [] "one byte" 0 false) (sampleUpload "text/plain") ∧
      Escapes (sampleFile "POST" (by decide) ["image/png"] "" 0 true)
        (sampleUpload "image/png") := by
  refine ⟨⟨⟨_,rfl,by decide⟩,fun h => ?_⟩,⟨⟨_,rfl,by decide⟩,fun h => ?_⟩,
    ⟨⟨_,rfl,by decide⟩,fun h => ?_⟩,⟨⟨_,rfl,by decide⟩,fun h => ?_⟩⟩
  · have ht := isContentTypeAllowed_iff.mpr (h.types (by decide))
    exact absurd ht (by decide)
  · exact absurd (h.files (by decide) _ rfl) (by decide)
  · have ho : sizeOf "one byte" = none := by decide
    obtain ⟨n,hn,-⟩ := h.size (by decide)
    cases ho.symm.trans hn
  · rcases h.magic rfl with hi | ha
    · exact absurd hi (by decide)
    · exact absurd (isContentTypeAllowed_iff.mpr ha) (by decide)

end

end SdkApi.FileUploads
