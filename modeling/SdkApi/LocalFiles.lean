import SdkApi.LexicalPaths
import SdkApi.GoStrings

/-!
# The local storage

A key is cleaned and stripped of what would lead out of the root before it is
joined to the root. `Upload` writes the file at that path, `Download` opens it
and `Delete` removes it. What the system calls answer is up to the host; a
file that is written only in part stays as it is. There are no symbolic links.
-/

namespace SdkApi.LocalFiles
open PathPatterns LexicalPaths GoStrings List

namespace Filepath

def clean (p : String) : String := String.ofList (LexicalPaths.clean p.toList)

def join (a b : String) : String := String.ofList (LexicalPaths.join a.toList b.toList)

def dir (p : String) : String := String.ofList (LexicalPaths.dir p.toList)

def abs (cwd p : String) : String := String.ofList (LexicalPaths.abs cwd.toList p.toList)

end Filepath

/-- The loop of `sanitizeKey`, for at most this many rounds. -/
def strip : ℕ → String → String
  | 0, key => key
  | n+1, key =>
    if hasPrefix key "../" || hasPrefix key "/" then
      strip n (trimPrefix (trimPrefix key "../") "/")
    else key

def sanitizeKey (key : String) : String :=
  let key := Filepath.clean key
  let key := strip key.toList.length key
  if key = "." ∨ key = ".." then "" else key

structure LocalStorage where
  root : String
  absolute : ∃ ns, (∀ n ∈ ns, Plain n) ∧ root.toList = '/'::joined ns

inductive Syscall where
  | mkdirAll (dir : String)
  | create (path : String)
  | openFile (path : String)
  | remove (path : String)

structure Host where
  cwd : String
  absolute : rooted cwd.toList = true
  fails : Syscall → Option String

abbrev Files := String → Option (List UInt8)

structure Source where
  data : List UInt8
  err : Option String

section

lemma abs_rooted (h : Host) (root : String) :
    ∃ ns, (∀ n ∈ ns, Plain n) ∧ (Filepath.abs h.cwd root).toList = '/'::joined ns := by
  rw [Filepath.abs, String.toList_ofList, LexicalPaths.abs]
  split
  · rename_i ho
    exact clean_of_rooted ho
  · have he : h.cwd.toList ≠ [] := by
      intro hn
      have ha := h.absolute
      rw [hn] at ha
      cases ha
    rw [LexicalPaths.join, if_pos he]
    apply clean_of_rooted
    have ha := h.absolute
    rw [rooted, decide_eq_true_eq] at ha ⊢
    rw [head?_append, ha]
    rfl

def newLocalStorage (h : Host) (root : String) : Except String LocalStorage :=
  let abs := Filepath.abs h.cwd root
  match h.fails (.mkdirAll abs) with
  | some e => .error ("local storage mkdir: " ++ e)
  | none => .ok ⟨abs,abs_rooted h root⟩

variable (l : LocalStorage) (key : String)

def fullPath : String := Filepath.join l.root (sanitizeKey key)

def uploadPath : String := Filepath.clean (fullPath l key)

def downloadPath : String := Filepath.clean (fullPath l key)

def deletePath : String := fullPath l key

end

section

variable (h : Host) (l : LocalStorage) (files : Files) (key : String)

def write (path : String) (data : List UInt8) : Files :=
  fun p => if p = path then some data else files p

def upload (source : Source) : Except String Unit × Files :=
  match h.fails (.mkdirAll (Filepath.dir (fullPath l key))) with
  | some e => (.error ("local upload mkdir: " ++ e),files)
  | none =>
    match h.fails (.create (uploadPath l key)) with
    | some e => (.error ("local upload create: " ++ e),files)
    | none =>
      let files := write files (uploadPath l key) source.data
      match source.err with
      | some e => (.error ("local upload copy: " ++ e),files)
      | none => (.ok (),files)

def download : Except String (List UInt8) :=
  match files (downloadPath l key) with
  | none => .error ("file not found: " ++ sanitizeKey key)
  | some data =>
    match h.fails (.openFile (downloadPath l key)) with
    | some e => .error ("local download: " ++ e)
    | none => .ok data

def delete : Except String Unit × Files :=
  match h.fails (.remove (deletePath l key)) with
  | some e => (.error e,files)
  | none => (.ok (),fun p => if p = deletePath l key then none else files p)

inductive Op where
  | upload (key : String) (source : Source)
  | download (key : String)
  | delete (key : String)

def Op.name : Op → String
  | .upload key _ | .download key | .delete key => key

def step : Op → Files
  | .upload key source => (upload h l files key source).2
  | .download _ => files
  | .delete key => (delete h l files key).2

/-- Each call finds the host as it is then. -/
def run (files : Files) : List (Host × Op) → Files
  | [] => files
  | (h,op)::ops => run (step h l files op) ops

lemma toList_trimPrefix (s p : String) : (trimPrefix s p).toList =
    if hasPrefix s p then s.toList.drop p.toList.length else s.toList := by
  rw [trimPrefix]
  split
  · rw [String.toList_ofList]
  · rfl

/-- A rooted path, a dot, or double dots before plain names. -/
def Shape (cs : List Char) : Prop :=
  (∃ ps, (∀ s ∈ ps, Plain s) ∧ cs = '/'::joined ps) ∨ cs = dot ∨
    ∃ k ps, (∀ s ∈ ps, Plain s) ∧ cs = joined (List.replicate k dotdot++ps)

lemma shape_clean (p : List Char) : Shape (LexicalPaths.clean p) := by
  cases ho : rooted p with
  | true => exact .inl (clean_of_rooted ho)
  | false =>
    obtain ⟨k,ps,hps,hl⟩ := clean_of_unrooted ho
    rw [hl]
    split
    · exact .inr (.inl rfl)
    · exact .inr (.inr ⟨k,ps,hps,rfl⟩)

lemma head_joined {ss : List Segment} (h : ∀ s ∈ ss, s ≠ [] ∧ '/' ∉ s) :
    (joined ss).head? ≠ some '/' := by
  cases ss with
  | nil => nofun
  | cons s ss =>
    obtain ⟨hn,hl⟩ := h s (.head _)
    cases s with
    | nil => exact absurd rfl hn
    | cons c cs =>
      have hc : c ≠ '/' := fun hc => hl (by simp [hc])
      by_cases hss : ss = []
      · simpa [hss, joined] using hc
      · simpa [joined_cons _ hss] using hc

lemma hasPrefix_slash (s : String) : hasPrefix s "/" ↔ s.toList.head? = some '/' := by
  rw [hasPrefix, List.isPrefixOf_iff_prefix]
  cases hs : s.toList with
  | nil => simp
  | cons c cs => simp [cons_prefix_cons, eq_comm]

lemma hasPrefix_dots (s : String) : hasPrefix s "../" ↔ ∃ t, s.toList = dotdot++ '/'::t := by
  rw [hasPrefix, List.isPrefixOf_iff_prefix]
  constructor
  · rintro ⟨t,ht⟩
    exact ⟨t,ht.symm⟩
  · rintro ⟨t,ht⟩
    exact ⟨t,ht.symm⟩

variable {s : String} {t : List Char} {key : String} {ps : List Segment}

lemma trimPrefix_dots (h : s.toList = dotdot++ '/'::t) : (trimPrefix s "../").toList = t := by
  rw [toList_trimPrefix, if_pos ((hasPrefix_dots s).mpr ⟨t,h⟩), h]
  rfl

lemma trimPrefix_dots_none (h : s.toList.head? = some '/') :
    (trimPrefix s "../").toList = s.toList := by
  rw [toList_trimPrefix, if_neg]
  rw [hasPrefix_dots]
  rintro ⟨t,ht⟩
  rw [ht] at h
  cases h

lemma trimPrefix_slash (h : s.toList = '/'::t) : (trimPrefix s "/").toList = t := by
  rw [toList_trimPrefix, if_pos ((hasPrefix_slash s).mpr (by rw [h]; rfl)), h]
  rfl

lemma trimPrefix_slash_none (h : s.toList.head? ≠ some '/') :
    (trimPrefix s "/").toList = s.toList := by
  rw [toList_trimPrefix, if_neg]
  rwa [hasPrefix_slash]

lemma names_of_dots {k : ℕ} (h : ∀ s ∈ ps, Plain s) :
    ∀ s ∈ replicate k dotdot++ps, s ≠ [] ∧ '/' ∉ s := by
  intro s hs
  rcases mem_append.mp hs with hs | hs
  · rw [(mem_replicate.mp hs).2]
    exact ⟨by decide,by decide⟩
  · exact ⟨(h s hs).nonempty,(h s hs).noSlash⟩

lemma joined_dots {k : ℕ} (h : ∀ s ∈ ps, Plain s)
    (ht : joined (replicate k dotdot++ps) = dotdot++ '/'::t) :
    ∃ j, k = j+1 ∧ t = joined (replicate j dotdot++ps) := by
  have hn := congrArg split ht
  have he : replicate k dotdot++ps ≠ [] := by
    intro hi
    rw [hi] at ht
    cases ht
  rw [joined, split, splitOn_intercalate _ (fun s hs => (names_of_dots h s hs).2) he,
    split_append_slash, split_single (by decide)] at hn
  cases k with
  | zero =>
    have hm : dotdot ∈ ps := by
      rw [replicate_zero, nil_append] at hn
      rw [hn]
      exact .head _
    exact absurd rfl (h dotdot hm).not_dotdot
  | succ k =>
    refine ⟨k,rfl,?_⟩
    rw [replicate_succ, cons_append, singleton_append] at hn
    rw [joined, (cons.inj hn).2, split, intercalate_splitOn]

lemma shape_round (h : Shape key.toList) (hrun : hasPrefix key "../" ∨ hasPrefix key "/") :
    Shape (trimPrefix (trimPrefix key "../") "/").toList := by
  rcases h with ⟨ps,hps,hk⟩ | hk | ⟨k,ps,hps,hk⟩
  · have ho := trimPrefix_dots_none (s := key) (by rw [hk]; rfl)
    rw [trimPrefix_slash (ho.trans hk)]
    exact .inr (.inr ⟨0,ps,hps,rfl⟩)
  · rw [hasPrefix_dots, hasPrefix_slash, hk] at hrun
    rcases hrun with ⟨t,ht⟩ | hrun
    · cases ht
    · cases hrun
  · have he := head_joined (names_of_dots (k := k) hps)
    rw [hasPrefix_dots, hasPrefix_slash, hk] at hrun
    rcases hrun with ⟨t,ht⟩ | hrun
    · obtain ⟨j,rfl,rfl⟩ := joined_dots hps ht
      have ho := trimPrefix_dots (hk.trans ht)
      have hn := head_joined (names_of_dots (k := j) hps)
      rw [trimPrefix_slash_none (by rwa [ho]), ho]
      exact .inr (.inr ⟨j,ps,hps,rfl⟩)
    · exact absurd hrun he

lemma shape_strip (n : ℕ) (h : Shape key.toList) : Shape (strip n key).toList := by
  induction n generalizing key with
  | zero => exact h
  | succ n ih =>
    rw [strip]
    split
    · rename_i hrun
      exact ih (shape_round h (by simpa using hrun))
    · exact h

lemma length_trimPrefix_le (s p : String) : (trimPrefix s p).toList.length ≤ s.toList.length := by
  rw [toList_trimPrefix]
  split
  · rw [length_drop]
    omega
  · exact le_refl _

lemma length_round (hrun : hasPrefix key "../" ∨ hasPrefix key "/") :
    (trimPrefix (trimPrefix key "../") "/").toList.length < key.toList.length := by
  have ho := length_trimPrefix_le (trimPrefix key "../") "/"
  rcases hrun with hdo | hl
  · obtain ⟨t,ht⟩ := (hasPrefix_dots key).mp hdo
    rw [trimPrefix_dots ht] at ho
    rw [ht]
    simp only [length_append, length_cons]
    omega
  · rw [hasPrefix_slash] at hl
    have hk : (trimPrefix key "../").toList = key.toList := trimPrefix_dots_none hl
    obtain ⟨t,ht⟩ := head?_eq_some_iff.mp hl
    rw [trimPrefix_slash (hk.trans ht), ht]
    exact Nat.lt_succ_self _

lemma strip_finished {n : ℕ} (h : key.toList.length ≤ n) :
    ¬(hasPrefix (strip n key) "../" ∨ hasPrefix (strip n key) "/") := by
  induction n generalizing key with
  | zero =>
    have hn : key.toList = [] := length_eq_zero_iff.mp (Nat.le_zero.mp h)
    rw [strip, hasPrefix_dots, hasPrefix_slash, hn]
    rintro (⟨t,ht⟩ | hl)
    · cases ht
    · cases hl
  | succ n ih =>
    rw [strip]
    split
    · rename_i hrun
      have hsh := length_round (by simpa using hrun : _ ∨ _)
      exact ih (by omega)
    · rename_i ho
      simpa using ho

lemma sanitizeKey_plain (key : String) :
    ∃ ks, (∀ s ∈ ks, Plain s) ∧ (sanitizeKey key).toList = joined ks := by
  unfold sanitizeKey
  obtain ⟨key',hk'⟩ : ∃ k, strip (Filepath.clean key).toList.length (Filepath.clean key) = k :=
    ⟨_,rfl⟩
  have ho := strip_finished (le_refl (Filepath.clean key).toList.length)
  have ha : Shape key'.toList := by
    rw [← hk']
    apply shape_strip
    rw [Filepath.clean, String.toList_ofList]
    exact shape_clean _
  rw [hk', hasPrefix_dots, hasPrefix_slash, not_or] at ho
  simp only [hk']
  split
  · exact ⟨[],nofun,rfl⟩
  · rename_i hl
    rw [not_or] at hl
    rcases ha with ⟨ps,hps,hk⟩ | hk | ⟨k,ps,hps,hk⟩
    · exact absurd (by rw [hk]; rfl) ho.2
    · exact absurd (String.toList_injective hk) hl.1
    · cases k with
      | zero => exact ⟨ps,hps,by simpa using hk⟩
      | succ k =>
        rw [replicate_succ, cons_append] at hk
        by_cases he : replicate k dotdot++ps = []
        · rw [he] at hk
          exact absurd (String.toList_injective hk) hl.2
        · rw [joined_cons _ he] at hk
          exact absurd ⟨_,hk⟩ ho.1

example : sanitizeKey "/../a//./b/../c" = "a/c" := by decide

end

section

variable (l : LocalStorage) (key : String)

lemma fullPath_spec : Inside l.root.toList (fullPath l key).toList ∧
    LexicalPaths.clean (fullPath l key).toList = (fullPath l key).toList := by
  obtain ⟨rs,hrs,ho⟩ := l.absolute
  obtain ⟨ks,hks,hk⟩ := sanitizeKey_plain key
  rw [fullPath, Filepath.join, String.toList_ofList, ho, hk]
  refine ⟨inside_join hrs hks,?_⟩
  rw [join_plain hrs hks, clean_clean_rooted]
  intro s hs
  rcases mem_append.mp hs with hs | hs
  · exact hrs s hs
  · exact hks s hs

lemma clean_fullPath : Filepath.clean (fullPath l key) = fullPath l key := by
  rw [Filepath.clean, (fullPath_spec l key).2, String.ofList_toList]

theorem paths_inside :
    (Inside l.root.toList (uploadPath l key).toList ∧
      Inside l.root.toList (downloadPath l key).toList ∧
      Inside l.root.toList (deletePath l key).toList) ∧
    ∀ key', uploadPath l key = uploadPath l key' →
      downloadPath l key = downloadPath l key' ∧ deletePath l key = deletePath l key' := by
  have hi := (fullPath_spec l key).1
  have hl := clean_fullPath l
  refine ⟨?_,fun key' h => ?_⟩
  · rw [uploadPath, downloadPath, deletePath, hl]
    exact ⟨hi,hi,hi⟩
  · rw [uploadPath, uploadPath, hl, hl] at h
    rw [downloadPath, downloadPath, deletePath, deletePath, hl, hl]
    exact ⟨h,h⟩

end

section

variable {h : Host} {l : LocalStorage} {files files' : Files} {p key key' : String}

lemma step_other (op : Op) (hp : p ≠ fullPath l op.name) : step h l files op p = files p := by
  cases op with
  | download key => rfl
  | upload key source =>
    have ha : p ≠ uploadPath l key := by
      rw [uploadPath, clean_fullPath]
      exact hp
    simp only [step, upload]
    split
    · rfl
    · split
      · rfl
      · split <;> simp [write, ha]
  | delete key =>
    simp only [step, delete]
    split
    · rfl
    · exact if_neg hp

lemma fullPath_inj (he : fullPath l key = fullPath l key') : sanitizeKey key = sanitizeKey key' := by
  obtain ⟨rs,hrs,ho⟩ := l.absolute
  obtain ⟨ks,hks,hk⟩ := sanitizeKey_plain key
  obtain ⟨ks',hks',hk'⟩ := sanitizeKey_plain key'
  have hn := congrArg (names ·.toList) he
  simp only [fullPath, Filepath.join, String.toList_ofList, ho, hk, hk', join_plain hrs hks,
    join_plain hrs hks', names_rooted] at hn
  rw [names_joined (forall_mem_append.mpr ⟨hrs,hks⟩),
    names_joined (forall_mem_append.mpr ⟨hrs,hks'⟩), append_cancel_left_eq] at hn
  exact String.toList_injective (by rw [hk, hk', hn])

lemma run_other (ops : List (Host × Op)) (hp : ∀ o ∈ ops, p ≠ fullPath l o.2.name) :
    run l files ops p = files p := by
  induction ops generalizing files with
  | nil => rfl
  | cons o ops ih =>
    rw [forall_mem_cons] at hp
    rw [run, ih hp.2, step_other o.2 hp.1]

/-- A path that is not inside the root keeps its file. -/
theorem run_outside (ops : List (Host × Op)) (hp : ¬Inside l.root.toList p.toList) :
    run l files ops p = files p := by
  refine run_other ops fun o _ he => hp ?_
  rw [he]
  exact (fullPath_spec l o.2.name).1

theorem run_outside_root :
    run ⟨"/a",[['a']],by simpa using ⟨by decide,by decide,by decide,by decide⟩,rfl⟩
      (fun _ => none) [(⟨"/",rfl,fun _ => none⟩,.upload "../b" ⟨[],none⟩)] "/b" = none := by
  refine run_outside _ ?_
  rintro (h | ⟨ss,-,-,h⟩) <;> cases h

lemma upload_ok {source : Source} (hu : (upload h l files key source).1 = .ok ()) :
    (upload h l files key source).2 = write files (fullPath l key) source.data := by
  revert hu
  unfold upload
  rw [uploadPath, clean_fullPath]
  split
  · nofun
  · split
    · nofun
    · split
      · nofun
      · exact fun _ => rfl

/-- What was uploaded is there until a call for a key of the same name after sanitising. -/
theorem download_uploaded (h h' : Host) (l : LocalStorage) (files : Files) (key key' : String)
    (source : Source) (ops : List (Host × Op)) (hu : (upload h l files key source).1 = .ok ())
    (ho : ∀ o ∈ ops, sanitizeKey o.2.name ≠ sanitizeKey key)
    (hk : sanitizeKey key' = sanitizeKey key)
    (hf : h'.fails (.openFile (downloadPath l key')) = none) :
    download h' l (run l (upload h l files key source).2 ops) key' = .ok source.data := by
  have hp : downloadPath l key' = fullPath l key := by
    rw [downloadPath, clean_fullPath, fullPath, fullPath, hk]
  have hr : run l (upload h l files key source).2 ops (downloadPath l key') = some source.data := by
    rw [hp, run_other ops fun o hm he => ho o hm (fullPath_inj he).symm, upload_ok hu]
    exact if_pos rfl
  simp only [download, hr, hf]

theorem download_uploaded_again : let h : Host := ⟨"/",rfl,fun _ => none⟩
    download h ⟨"/",[],nofun,rfl⟩ (run ⟨"/",[],nofun,rfl⟩ (upload h ⟨"/",[],nofun,rfl⟩
      (fun _ => none) "a" ⟨[1],none⟩).2 [(h,.delete "b")]) "../a" = .ok [1] :=
  download_uploaded _ _ _ _ _ _ _ _ rfl (by decide) (by decide) rfl

end

end SdkApi.LocalFiles
