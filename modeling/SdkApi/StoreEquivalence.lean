import SdkApi.LedgerRefinement
import SdkApi.Simulations

/-!
# Four stores and one ledger

Every store answers as the ledger does as long as a call stays within what all
of them keep: no callback URL and no retries on a submission, results whose
text survives being read back, lists and passes of at most a hundred jobs, no
deadline that is exactly now.
-/

namespace SdkApi.StoreEquivalence
open AssocLists GuardedRuns Simulations LedgerRefinement JobStores JobSchedules AsyncManager
open List Option
open JobOperations
open Tables (GoMap)

variable {R J : Type}

section

variable {codec : Codec R J} {jobs : GoMap (JobState R)} {ledger : GoMap (JobState (Option J))}
  {now maxRetries : ℤ}

lemma refines_reap {jobs' : GoMap (JobState R)} (h : Refines codec jobs ledger)
    (hk : (jobs'.map Prod.fst).Nodup)
    (hl : ∀ id, (jobs.lookup id = none → jobs'.lookup id = none) ∧
      ∀ js, jobs.lookup id = some js → ∃ js', jobs'.lookup id = some js' ∧
        view codec js' = view codec (if due now js then reap now maxRetries js else js) ∧
        ∀ r, js'.result = some r → Stable codec r) :
    Refines codec jobs' (reapAll now maxRetries ledger).1 := by
  refine refines_rewrite h hk (fun _ js => if due now js then reap now maxRetries js else js) ?_
  intro id
  refine ⟨(hl id).1,?_⟩
  intro js hj
  obtain ⟨js',hj',hi,ht⟩ := (hl id).2 js hj
  refine ⟨js',hj',?_,ht⟩
  rw [hi]
  show view codec (if due now js then reap now maxRetries js else js) =
    if due now js then reap now maxRetries (view codec js) else view codec js
  split_ifs
  · exact view_reap codec now maxRetries js
  · rfl

lemma stable_reap {js : JobState R} (maxRetries : ℤ)
    (hj : ∀ r, js.result = some r → Stable codec r) :
    ∀ r, (if due now js then reap now maxRetries js else js).result = some r → Stable codec r := by
  split_ifs
  · rw [reap_result]
    exact hj
  · exact hj

lemma reapAll_count (h : Refines codec jobs ledger) (now maxRetries : ℤ) :
    (reapAll now maxRetries ledger).2 = jobs.countP fun e => due now e.2 := by
  rw [reapAll, ← countP_eq_length_filter, ← refines_countP h]
  rfl

lemma reap_memory (h : Refines codec jobs ledger) (now maxRetries : ℤ) :
    (reapAll now maxRetries jobs).2 = (reapAll now maxRetries ledger).2 ∧
      Refines codec (reapAll now maxRetries jobs).1 (reapAll now maxRetries ledger).1 := by
  constructor
  · rw [reapAll_count h, reapAll, ← countP_eq_length_filter]
  · apply refines_reap h
    · rw [reapAll, List.map_map]
      exact h.keys
    · intro id
      rw [lookup_reapAll]
      refine ⟨fun hn => by rw [hn, map_none],?_⟩
      intro js hj
      rw [hj, map_some]
      exact ⟨_,rfl,rfl,stable_reap maxRetries (h.stable id js hj)⟩

lemma reap_walk {S : JobStore R} (hS : S.marshal = codec.marshal) (h : Refines codec jobs ledger)
    (now maxRetries : ℤ) :
    (walk (due now) (fun jobs id js => save S jobs id (reap now maxRetries js))
        (jobs.map Prod.fst) (jobs,0)).2 = (reapAll now maxRetries ledger).2 ∧
      Refines codec (walk (due now) (fun jobs id js => save S jobs id (reap now maxRetries js))
        (jobs.map Prod.fst) (jobs,0)).1 (reapAll now maxRetries ledger).1 := by
  have ha : ∀ (jobs : GoMap (JobState R)) (id : String) (js : JobState R) (id' : String),
      id' ≠ id → (save S jobs id (reap now maxRetries js)).lookup id' = jobs.lookup id' :=
    fun _ _ _ _ hne => lookup_save_ne hne
  constructor
  · rw [walk_count ha h.keys, countP_keys h.keys, reapAll_count h, Nat.zero_add]
  · apply refines_reap h (nodup_walk (fun _ _ _ hk => nodup_save hk _) h.keys)
    intro id
    by_cases hi : id ∈ jobs.map Prod.fst
    · obtain ⟨hn,ho⟩ := lookup_walk ha h.keys hi (jobs,0)
      refine ⟨hn,?_⟩
      intro js hj
      obtain ⟨jobs',hj'⟩ := ho js hj
      rw [hj']
      have he := @stable_reap _ _ _ now _ maxRetries (h.stable id js hj)
      split_ifs at he ⊢
      · exact lookup_save_stable hS jobs' id he
      · exact ⟨js,rfl,rfl,he⟩
    · rw [lookup_walk_ne ha hi]
      refine ⟨fun hn => hn,?_⟩
      intro js hj
      exact absurd (mem_map_of_mem ((lookup_eq_some_iff h.keys).mp hj)) hi

variable {js : JobState R} {p : JobState R → Bool}

lemma mem_hits (h : (jobs.map Prod.fst).Nodup) (hp : jobs.countP (fun e => p e.2) ≤ 100)
    {id : String} (hj : jobs.lookup id = some js) : id ∈ hits p jobs ↔ p js := by
  rw [countP_eq_length_filter] at hp
  rw [hits, take_of_length_le hp, List.mem_map]
  constructor
  · rintro ⟨⟨key,js'⟩,he,rfl⟩
    obtain ⟨hm,hp'⟩ := mem_filter.mp he
    rw [(lookup_eq_some_iff h).mpr hm, some.injEq] at hj
    exact hj ▸ hp'
  · intro hp'
    exact ⟨(id,js),mem_filter.mpr ⟨(lookup_eq_some_iff h).mp hj,hp'⟩,rfl⟩

lemma length_hits (hp : jobs.countP (fun e => p e.2) ≤ 100) :
    (hits p jobs).length = jobs.countP fun e => p e.2 := by
  rw [countP_eq_length_filter] at hp ⊢
  rw [hits, take_of_length_le hp, length_map]

lemma overdue_eq_due (h : js.status = .processing → js.processingDeadline ≠ some now) :
    overdue now js = due now js := by
  rw [overdue, due]
  by_cases ht : js.status = .processing
  · cases hdl : js.processingDeadline with
    | none => rfl
    | some dl =>
      have hn : dl ≠ now := by
        rintro rfl
        exact h ht hdl
      have hi : decide (dl < now) = !decide (now < dl) := by
        by_cases hl : now < dl
        · simp [hl, hl.le]
        · have hg : dl < now := lt_of_le_of_ne (not_lt.mp hl) hn
          simp [hg, hl]
      simp [ht, hi]
  · simp [ht]

lemma due_cases (maxRetries : ℤ) (h : overdue now js = due now js) :
    (retryable now maxRetries js ∧ exhausted now maxRetries js = false ∧ due now js ∧
        reap now maxRetries js = requeue now js) ∨
      (retryable now maxRetries js = false ∧ exhausted now maxRetries js ∧
        due now js ∧ reap now maxRetries js = giveUp now js) ∨
      (retryable now maxRetries js = false ∧ exhausted now maxRetries js = false ∧
        due now js = false) := by
  rw [retryable, exhausted, reap, h]
  cases due now js with
  | false => simp
  | true =>
    by_cases hm : maxRetries ≤ js.retryCount
    · simp [hm]
    · simp [hm, not_le.mp hm]

lemma exhausted_requeue (js : JobState R) : exhausted now maxRetries (requeue now js) = false := by
  simp [exhausted, overdue, requeue]

lemma countP_exhausted (h : (jobs.map Prod.fst).Nodup)
    (hu : ∀ e ∈ jobs, overdue now e.2 = due now e.2)
    (ht : jobs.countP (fun e => retryable now maxRetries e.2) ≤ 100) :
    (updateRows (requeue now) (hits (retryable now maxRetries) jobs) jobs).countP
        (fun e => exhausted now maxRetries e.2) =
      jobs.countP fun e => exhausted now maxRetries e.2 := by
  rw [updateRows, countP_map]
  apply countP_congr
  rintro ⟨id,js⟩ he
  have hm := mem_hits h ht ((lookup_eq_some_iff h).mpr he)
  rcases due_cases maxRetries (hu _ he) with ⟨hr,hx,-⟩ | ⟨hr,hx,-⟩ | ⟨hr,hx,-⟩
  · simp [hm.mpr hr, exhausted_requeue, hx]
  · simp [show id ∉ hits (retryable now maxRetries) jobs by simp [hm, hr]]
  · simp [show id ∉ hits (retryable now maxRetries) jobs by simp [hm, hr]]

lemma countP_due (hu : ∀ e ∈ jobs, overdue now e.2 = due now e.2) :
    jobs.countP (fun e => retryable now maxRetries e.2)+
        jobs.countP (fun e => exhausted now maxRetries e.2) =
      jobs.countP fun e => due now e.2 := by
  induction jobs with
  | nil => rfl
  | cons e jobs ih =>
    have he := ih fun e' he' => hu e' (.tail e he')
    simp only [countP_cons]
    rcases due_cases maxRetries (hu e (.head _)) with
      ⟨hr,hx,hd,-⟩ | ⟨hr,hx,hd,-⟩ | ⟨hr,hx,hd⟩
    all_goals
      simp only [hr, hx, hd, if_true, Bool.false_eq_true, if_false]
      omega

lemma reap_rows (h : Refines codec jobs ledger) (hu : ∀ e ∈ jobs, overdue now e.2 = due now e.2)
    (ht : jobs.countP (fun e => retryable now maxRetries e.2) ≤ 100)
    (hex : jobs.countP (fun e => exhausted now maxRetries e.2) ≤ 100) :
    (reapRows now maxRetries jobs).2 = (reapAll now maxRetries ledger).2 ∧
      Refines codec (reapRows now maxRetries jobs).1 (reapAll now maxRetries ledger).1 := by
  have ho := countP_exhausted h.keys hu ht
  have he' := ho.trans_le hex
  have hk := nodup_updateRows (requeue now) (hits (retryable now maxRetries) jobs) h.keys
  rw [reapRows]
  constructor
  · rw [length_hits ht, length_hits he', ho, countP_due hu, reapAll_count h]
  · apply refines_reap h (nodup_updateRows _ _ hk)
    intro id
    constructor
    · intro hne
      rw [lookup_updateRows, lookup_updateRows, hne, map_none, map_none]
    · intro js hj
      have he := mem_hits h.keys ht hj
      have hi :
          (updateRows (requeue now) (hits (retryable now maxRetries) jobs) jobs).lookup id =
          some (if id ∈ hits (retryable now maxRetries) jobs then requeue now js else js) := by
        rw [lookup_updateRows, hj, map_some]
      have ha := mem_hits hk he' hi
      have hn : (if id ∈ hits (exhausted now maxRetries)
            (updateRows (requeue now) (hits (retryable now maxRetries) jobs) jobs)
          then giveUp now (if id ∈ hits (retryable now maxRetries) jobs then requeue now js else js)
          else if id ∈ hits (retryable now maxRetries) jobs then requeue now js else js) =
          if due now js then reap now maxRetries js else js := by
        rcases due_cases maxRetries (hu _ ((lookup_eq_some_iff h.keys).mp hj)) with
          ⟨hr,-,hd,hre⟩ | ⟨hr,hx,hd,hre⟩ | ⟨hr,hx,hd⟩
        · simp [ha, he, hr, hd, hre, exhausted_requeue]
        · simp [ha, he, hr, hx, hd, hre]
        · simp [ha, he, hr, hx, hd]
      refine ⟨_,by rw [lookup_updateRows, hi, map_some],?_⟩
      rw [hn]
      exact ⟨rfl,stable_reap maxRetries (h.stable id js hj)⟩

lemma refines_drop {jobs' : GoMap (JobState R)} (h : Refines codec jobs ledger)
    (hk : (jobs'.map Prod.fst).Nodup) (q : String → JobState (Option J) → Bool)
    (hl : ∀ id, jobs'.lookup id = (jobs.lookup id).filter fun js => q id (view codec js)) :
    Refines codec jobs' (ledger.filter fun e => q e.1 e.2) where
  keys := hk
  ledgerKeys := h.ledgerKeys.sublist (filter_sublist.map _)
  lookup id := by
    rw [lookup_filter h.ledgerKeys, h.lookup, hl]
    cases jobs.lookup id with
    | none => rfl
    | some js =>
      rw [map_some, filter_some, filter_some]
      cases q id (view codec js) <;> rfl
  stable id js hj := by
    rw [hl, filter_eq_some_iff] at hj
    exact h.stable id js hj.1

lemma refines_delete (h : Refines codec jobs ledger) (id : String) :
    Refines codec (delete jobs id) (delete ledger id) := by
  apply refines_drop h (nodup_drop_key h.keys id) (fun key _ => decide (key ≠ id))
  intro id'
  exact lookup_filter h.keys (fun key _ => decide (key ≠ id)) id'

section

variable (h : Refines codec jobs ledger) (now : ℤ) (ttl : ℕ)
include h

lemma cleanAll_count : (cleanAll now ttl ledger).2 = jobs.countP fun e => expired now ttl e.2 := by
  rw [cleanAll, ← countP_eq_length_filter, ← refines_countP h]
  rfl

lemma clean_all :
    (cleanAll now ttl jobs).2 = (cleanAll now ttl ledger).2 ∧
      Refines codec (cleanAll now ttl jobs).1 (cleanAll now ttl ledger).1 := by
  constructor
  · rw [cleanAll_count h, cleanAll, ← countP_eq_length_filter]
  · apply refines_drop h (h.keys.sublist (filter_sublist.map _))
      (fun _ js => !expired now ttl js)
    intro id
    exact lookup_filter h.keys (fun _ js => !expired now ttl js) id

lemma clean_walk :
    (walk (expired now ttl) (fun jobs id _ => delete jobs id) (jobs.map Prod.fst) (jobs,0)).2 =
        (cleanAll now ttl ledger).2 ∧
      Refines codec (walk (expired now ttl) (fun jobs id _ => delete jobs id)
        (jobs.map Prod.fst) (jobs,0)).1 (cleanAll now ttl ledger).1 := by
  have ha : ∀ (jobs : GoMap (JobState R)) (id : String) (_ : JobState R) (id' : String),
      id' ≠ id → (delete jobs id).lookup id' = jobs.lookup id' :=
    fun jobs _ _ _ hn => lookup_drop_key_ne hn jobs
  constructor
  · rw [walk_count ha h.keys, countP_keys h.keys, cleanAll_count h, Nat.zero_add]
  · have hk : ((walk (expired now ttl) (fun jobs id _ => delete jobs id)
        (jobs.map Prod.fst) (jobs,0)).1.map Prod.fst).Nodup :=
      nodup_walk (fun _ id _ hk => nodup_drop_key hk id) h.keys
    apply refines_drop h hk (fun _ js => !expired now ttl js)
    intro id
    cases hj : jobs.lookup id with
    | none =>
      by_cases hi : id ∈ jobs.map Prod.fst
      · exact (lookup_walk ha h.keys hi (jobs,0)).1 hj
      · rw [lookup_walk_ne ha hi]
        exact hj
    | some js =>
      have hi : id ∈ jobs.map Prod.fst :=
        mem_map_of_mem ((lookup_eq_some_iff h.keys).mp hj)
      obtain ⟨jobs',hj'⟩ := (lookup_walk ha h.keys hi (jobs,0)).2 js hj
      rw [hj', delete, lookup_drop_key_self, filter_some]
      show (if expired now ttl js then none else some js) =
        if !expired now ttl js then some js else none
      cases expired now ttl js <;> rfl

end

end

section

variable {codec : Codec R J} {jobs : GoMap (JobState R)} {ledger : GoMap (JobState (Option J))}

lemma listAnswer_perm {l m : List (JobState (Option J))} (h : l.Perm m)
    (hl : ∀ js ∈ l, (shown js).isSome) : listAnswer (some l) = listAnswer (some m) := by
  have ha : ∀ l : List (JobState (Option J)), (∀ js ∈ l, (shown js).isSome) →
      l.mapM shown = some (l.filterMap shown) := by
    intro l hl
    induction l with
    | nil => rfl
    | cons js l ih =>
      obtain ⟨r,hr⟩ := isSome_iff_exists.mp (hl js (.head _))
      have he := ih fun js' hj' => hl js' (.tail js hj')
      simp [mapM_cons, hr, he]
  have hm : ∀ js ∈ m, (shown js).isSome := fun js hj => hl js (h.mem_iff.mpr hj)
  rw [listAnswer, listAnswer, ha l hl, ha m hm]
  exact congrArg (fun l => Answer.jobs (some l)) (Quot.sound (h.filterMap shown))

lemma shown_stable {js : JobState R} (hjs : ∀ r, js.result = some r → Stable codec r) :
    (shown (view codec js)).isSome := by
  cases hr : js.result with
  | none => simp [shown, view, hr]
  | some r =>
    obtain ⟨j,-,hj,-⟩ := hjs r hr
    simp [shown, view, hr, hj]

lemma list_perm (S : JobStore R) (hne : jobs ≠ []) (hle : jobs.length ≤ 100) :
    ∃ l, list S jobs = some l ∧ l.Perm (jobs.map Prod.snd) := by
  have hn : ∀ l : List (JobState R), l.Perm (jobs.map Prod.snd) → orNil l = some l := by
    intro l hl
    have hl' : l ≠ [] := by
      rintro rfl
      exact hne (map_eq_nil_iff.mp hl.nil_eq.symm)
    rw [orNil, if_neg (by simpa using hl')]
  rw [list]
  split
  · exact ⟨_,rfl,.refl _⟩
  · have he := mergeSort_perm (jobs.map Prod.snd) newestFirst
    have ha : ((jobs.map Prod.snd).mergeSort newestFirst).length ≤ 100 := by
      rw [he.length_eq, length_map]
      exact hle
    rw [take_of_length_le ha]
    exact ⟨_,hn _ he,he⟩
  · exact ⟨_,hn _ (.refl _),.refl _⟩

lemma list_answer (S : JobStore R) (h : Refines codec jobs ledger) (hne : ledger ≠ [])
    (hle : ledger.length ≤ 100) :
    listAnswer ((list S jobs).map (·.map (view codec))) =
      listAnswer (some (ledger.map Prod.snd)) := by
  have ho := refines_records h
  have hn : jobs.length = ledger.length := by rw [← ho.length_eq, length_map]
  have hj : jobs ≠ [] := by
    rintro rfl
    exact hne (length_eq_zero_iff.mp hn.symm)
  obtain ⟨l,hl,hm⟩ := list_perm S hj (hn.trans_le hle)
  rw [hl, map_some]
  apply listAnswer_perm
  · have hi := ho.map Prod.snd
    rw [List.map_map] at hi
    refine (hm.map (view codec)).trans ?_
    rw [List.map_map]
    exact hi
  · intro js hjs
    obtain ⟨js0,hj1,rfl⟩ := List.mem_map.mp hjs
    obtain ⟨⟨id,js1⟩,he,rfl⟩ := List.mem_map.mp (hm.mem_iff.mp hj1)
    exact shown_stable (h.stable id js1 ((lookup_eq_some_iff h.keys).mpr he))

lemma notifyTarget_view (svc : Service) (callback : Option AsyncCallbackConf)
    (job : Option (JobState R)) :
    notifyTarget svc callback (job.map (view codec)) = notifyTarget svc callback job := by
  cases job with
  | none => rfl
  | some js => rfl

lemma submit_plain {mgr : Manager} {S : JobStore R} {id : String} {now : ℤ} {body : Body}
    (hu : (bodyCallback body).getD "" = "") (he : mgr.maxRetry = 0) :
    submit mgr S jobs id now true body = Tables.set jobs id (newJob id now) := by
  rw [submit]
  split
  · rw [submitted, hu, he]
    rfl
  · rw [create, Bool.true_or, if_pos rfl]

lemma cancel_answer (h : Refines codec jobs ledger) (id : String) :
    (handleCancel jobs id : Answer J × _).1 = (handleCancel ledger id).1 ∧
      Refines codec (handleCancel jobs id : Answer J × _).2
        (handleCancel ledger id : Answer J × _).2 := by
  rw [handleCancel, handleCancel, h.lookup]
  cases jobs.lookup id with
  | none => exact ⟨rfl,h⟩
  | some js =>
    by_cases hp : js.status = .processing
    · simp only [map_some, view, hp, if_true]
      exact ⟨trivial,h⟩
    · simp only [map_some, view, hp, if_false]
      exact ⟨trivial,refines_delete h id⟩

def Safe (codec : Codec R J) (mgr : Manager) (jobs : GoMap (JobState (Option J)))
    (c : Call R) : Prop :=
  match c.op with
  | .submit id body =>
    jobs.lookup id = none ∧ (bodyCallback body).getD "" = "" ∧ mgr.maxRetry = 0
  | .finish _ out => Recordable codec (outcomeChange out)
  | .list => jobs ≠ [] ∧ jobs.length ≤ 100
  | .reapStale maxRetries =>
    (∀ e ∈ jobs, e.2.status = .processing → e.2.processingDeadline ≠ some c.now) ∧
      jobs.countP (fun e => retryable c.now maxRetries e.2) ≤ 100 ∧
      jobs.countP (fun e => exhausted c.now maxRetries e.2) ≤ 100
  | .cleanup ttl => ttl = 0 ∨ 1000 ≤ ttl
  | _ => True

variable {codec : Codec R J} {jobs : GoMap (JobState R)} {ledger : GoMap (JobState (Option J))}

lemma reapStale_refines {S : JobStore R} (hS : S.marshal = codec.marshal)
    (h : Refines codec jobs ledger) {now maxRetries : ℤ}
    (ha : ∀ e ∈ ledger, e.2.status = .processing → e.2.processingDeadline ≠ some now)
    (ht : ledger.countP (fun e => retryable now maxRetries e.2) ≤ 100)
    (hx : ledger.countP (fun e => exhausted now maxRetries e.2) ≤ 100) :
    (reapStale S now maxRetries jobs).2 = (reapAll now maxRetries ledger).2 ∧
      Refines codec (reapStale S now maxRetries jobs).1 (reapAll now maxRetries ledger).1 := by
  rw [reapStale]
  split
  · exact reap_memory h now maxRetries
  · rw [← refines_countP h] at ht hx
    apply reap_rows h _ ht hx
    rintro ⟨id,js⟩ he
    apply overdue_eq_due
    have hm := (refines_records h).mem_iff.mp (mem_map_of_mem he)
    exact ha _ hm
  · exact reap_walk hS h now maxRetries

lemma cleanup_refines (S : JobStore R) (h : Refines codec jobs ledger) (now : ℤ) {ttl : ℕ}
    (ht : ttl = 0 ∨ 1000 ≤ ttl) :
    (cleanup S now ttl jobs).2 = some (cleanAll now ttl ledger).2 ∧
      Refines codec (cleanup S now ttl jobs).1 (cleanAll now ttl ledger).1 := by
  obtain ⟨hl,he⟩ := clean_all h now ttl
  rw [cleanup]
  split
  · exact ⟨congrArg some hl,he⟩
  · have hi : interval ttl = some ttl := by
      rw [interval, if_neg]
      omega
    rw [hi]
    exact ⟨congrArg some hl,he⟩
  · obtain ⟨ho,ha⟩ := clean_walk h now ttl
    exact ⟨congrArg some ho,ha⟩

lemma perform_refines (svc : Service) {mgr : Manager} (h : Refines codec jobs ledger) {c : Call R}
    (ha : Safe codec mgr ledger c) :
    (perform svc mgr codec jobs c).1 = (ledgerStep svc mgr codec ledger c).1 ∧
      Refines codec (perform svc mgr codec jobs c).2 (ledgerStep svc mgr codec ledger c).2 := by
  obtain ⟨now,op⟩ := c
  cases op with
  | submit id body =>
    obtain ⟨-,hu,he⟩ := ha
    simp only [perform, ledgerStep, submit_plain hu he]
    refine ⟨trivial,refines_set h id (newJob id now) ?_⟩
    rintro r hr
    cases hr
  | start id =>
    refine ⟨rfl,refines_updateJob mgr h ⟨?_,by simp [markProcessing]⟩ id now⟩
    rintro r hr
    cases hr
  | finish id out =>
    have hn := refines_updateJob mgr h ha id now
    refine ⟨?_,hn⟩
    simp only [perform, ledgerStep, hn.lookup, notifyTarget_view]
  | status id =>
    refine ⟨?_,h⟩
    simp only [perform, ledgerStep, h.lookup]
  | list => exact ⟨list_answer _ h ha.1 ha.2,h⟩
  | cancel id => exact cancel_answer h id
  | reapStale maxRetries =>
    obtain ⟨ho,hn⟩ := reapStale_refines (S := storeOf mgr codec.marshal) rfl h ha.1 ha.2.1 ha.2.2
    exact ⟨congrArg (fun n => Answer.count (some n)) ho,hn⟩
  | cleanup ttl =>
    obtain ⟨ho,hn⟩ := cleanup_refines (storeOf mgr codec.marshal) h now ha
    exact ⟨congrArg Answer.count ho,hn⟩

def on (mgr : Manager) (kind : Kind) : Manager := { mgr with kind := kind }

lemma answers_ledger {svc : Service} {mgr : Manager} (kind : Kind) (E : Arrangement R)
    {calls : List (Call R)} {ledger : GoMap (JobState (Option J))}
    (hrun : Run (Moves (ledgerStep svc mgr codec)) (Safe codec mgr) [] calls ledger) :
    answers (step svc (on mgr kind) codec E) {} calls =
      answers (ledgerStep svc mgr codec) [] calls := by
  have hstep : ∀ (s : State R) (ledger : GoMap (JobState (Option J))) (c : Call R),
      Refines codec s.jobs ledger → Safe codec mgr ledger c →
      (step svc (on mgr kind) codec E s c).1 = (ledgerStep svc mgr codec ledger c).1 ∧
        Refines codec (step svc (on mgr kind) codec E s c).2.jobs
          (ledgerStep svc mgr codec ledger c).2 := by
    intro s ledger c he ha
    exact perform_refines svc (refines_perm he (E.arrange_perm s.turn s.jobs)) ha
  apply answers_eq hstep hrun
  refine ⟨nodup_nil,nodup_nil,fun id => rfl,?_⟩
  intro id js hj
  cases hj

theorem stores_interchangeable (svc : Service) (mgr : Manager) (codec : Codec R J)
    {calls : List (Call R)} {ledger : GoMap (JobState (Option J))}
    (hrun : Run (Moves (ledgerStep svc mgr codec)) (Safe codec mgr) [] calls ledger)
    (kind₁ kind₂ : Kind) (E₁ E₂ : Arrangement R) :
    answers (step svc (on mgr kind₁) codec E₁) {} calls =
      answers (step svc (on mgr kind₂) codec E₂) {} calls := by
  rw [answers_ledger kind₁ E₁ hrun, answers_ledger kind₂ E₂ hrun]

def inOrder (R : Type) : Arrangement R := ⟨fun _ jobs => jobs,fun _ _ => .refl _⟩

def fromTheEnd (R : Type) : Arrangement R := 
  ⟨fun _ jobs => jobs.reverse,fun _ _ => List.reverse_perm _⟩

def numbers : Codec ℕ ℕ := ⟨some,some,fun _ => true⟩

def quietService : Service where
  parseDuration _ := none
  pools _ := false
  kvConns _ := false
  brokers _ := none
  provision := false
  handlers _ := false

def quietManager : Manager where
  kind := .memory
  timeout := Service.fiveMinutes
  callback := some {}

def plainCalls : List (Call ℕ) :=
  [⟨0,.submit "j_1" none⟩,⟨1,.start "j_1"⟩,⟨2,.finish "j_1" (.ok (some 7))⟩,⟨3,.list⟩]

theorem plain_calls_interchangeable :
    answers (step quietService (on quietManager .memory) numbers (inOrder ℕ)) {} plainCalls =
      answers (step quietService (on quietManager .postgres) numbers (fromTheEnd ℕ)) {}
        plainCalls := by
  have hrun : Run (Moves (ledgerStep quietService quietManager numbers)) (Safe numbers quietManager)
      [] plainCalls _ :=
    .cons ⟨rfl,rfl,rfl⟩ rfl (.cons trivial rfl (.cons
      ⟨fun r _ => ⟨r,r,rfl,rfl,rfl,rfl⟩,by decide⟩ rfl
      (.cons ⟨cons_ne_nil _ _,by decide⟩ rfl (.nil _))))
  exact stores_interchangeable quietService quietManager numbers hrun _ _ _ _

def callbackCalls : List (Call ℕ) :=
  [⟨0,.submit "j_1" (some [("_callback_url",.str "https://myapp.com/cb")])⟩,⟨1,.start "j_1"⟩,
    ⟨2,.finish "j_1" (.ok (some 7))⟩]

/-- The URL of a body is notified from memory and lost on Redis; the retries of
the manager are shown from memory only. -/
theorem stores_differ :
    answers (step quietService (on quietManager .memory) numbers (inOrder ℕ)) {} callbackCalls =
        [.accepted "j_1" .pending,.marked,
          .notified (.ok (some ⟨"https://myapp.com/cb","",3,5000000⟩))] ∧
      answers (step quietService (on quietManager .redis) numbers (inOrder ℕ)) {} callbackCalls =
        [.accepted "j_1" .pending,.marked,.notified (.ok none)] ∧
      answers
        (step quietService (on { quietManager with maxRetry := 3 } .memory) numbers (inOrder ℕ))
          {} [⟨0,.submit "j_1" none⟩,⟨1,.status "j_1"⟩] ≠
        answers
          (step quietService (on { quietManager with maxRetry := 3 } .nats) numbers (inOrder ℕ))
          {} [⟨0,.submit "j_1" none⟩,⟨1,.status "j_1"⟩] := by
  refine ⟨rfl,rfl,?_⟩
  intro h
  have hj := head_eq_of_cons_eq (tail_eq_of_cons_eq h)
  have ho := Answer.job.inj hj
  exact absurd (congrArg Shown.maxRetries ho) (by decide)

end

end SdkApi.StoreEquivalence
