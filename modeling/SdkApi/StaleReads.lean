import SdkApi.CacheSchedules

/-!
# No Get answers a version older than a returned write

What a layer holds is fresh from the version on whose writer was the last to
delete the key from that layer. Two things break this. A Get that has read
the table before a write may store what it read after the deletes of the
writer, and a Get that starts after the writer has returned may join a flight
whose leader has read the table before.
-/

namespace SdkApi.StaleReads
open SqlEngine Tables KeyedTable CachedCrud CacheTransparency Freshness CacheSchedules
open List Option Function

variable {V A J : Type} (p : CachedProvider V A J) (id : String)

def held : Proc V A J → Option (Except DbError J)
  | .storingL2 _ res => some (res.map p.codec.encode)
  | .leaving _ res => some (res.map p.codec.encode)
  | _ => none

def Carries (c : Config V A J) (l : ℕ) (o : Except DbError J) : Prop :=
  held p (c.procs l) = some o ∨ c.results l = some o

def StepOk (c : Config V A J) : Label A → Prop
  | .tick i =>
    match c.procs i with
    | .entering f => ∀ l, c.flight = some l → ∀ o, Carries p c l o → FreshFrom c.ledger.versions f o
    | .storingL2 _ res => FreshFrom c.ledger.versions c.ledger.dropped2 (res.map p.codec.encode)
    | .storingL1 _ r => (∃ l1, c.l1 = some l1 ∧ l1 (p.keyPrefix ++ id) = none) →
        FreshFrom c.ledger.versions c.ledger.dropped1 (.ok (p.codec.encode r))
    | .updating _ => p.driver = .postgres →
        (c.table.filter (denotes p.backend p.info id)).length ≤ 1
    | .rereading (some _) => ∃ r, lookup p.backend p.info p.driver id c.table = .ok r
    | _ => True
  | _ => True

def ProcOk (a : Ledger (Except DbError J)) : Proc V A J → Prop
  | .lookingL1 f | .entering f | .lookingL2 f | .repairing f | .querying f
  | .waiting f _ => f ≤ a.returned
  | .storingL2 f res | .leaving f res => FreshFrom a.versions f (res.map p.codec.encode)
  | .storingL1 f r => FreshFrom a.versions f (.ok (p.codec.encode r))
  | .answered f ans => ∃ o, FreshFrom a.versions f o ∧ ans = answerOf p o
  | .rereading w | .droppingL1 w _ => ∀ n ∈ w, n < a.versions.length
  | .droppingL2 w _ => ∀ n ∈ w, n < a.versions.length ∧ n ≤ a.dropped1
  | .returning w _ => ∀ n ∈ w, n ≤ a.dropped1 ∧ n ≤ a.dropped2
  | .returned w _ => ∀ n ∈ w, n ≤ a.returned
  | .idle | .updating _ | .deleting => True

/-- The layers hold versions that no delete has overtaken. -/
structure Shared (c : Config V A J) : Prop where
  current : c.ledger.versions.getLast? = some (answer p c.table id)
  genuine : ∀ o ∈ c.ledger.versions, ∃ tbl, o = answer p tbl id
  ordered : Ordered c.ledger
  l1 : ∀ o, l1View p c.toState id = some o → FreshFrom c.ledger.versions c.ledger.dropped1 o
  l2 : ∀ o, l2View p c.toState id = some o → FreshFrom c.ledger.versions c.ledger.dropped2 o

structure Sound (c : Config V A J) : Prop extends Shared p id c where
  procs : ∀ i, ProcOk p c.ledger (c.procs i)
  waits : ∀ i f l, c.procs i = .waiting f l → ∀ o, Carries p c l o → FreshFrom c.ledger.versions f o

variable {p id}
variable {q : Proc V A J} {c : Config V A J} {patch : GoMap A} {tbl t : Table V} {e : DbError}

lemma procOk_later {a b : Ledger (Except DbError J)} (h : Later a b)
    (hq : ProcOk p a q) : ProcOk p b q := by
  have hl := later_length h
  have he := h.returned
  have h1 := h.dropped1
  have h2 := h.dropped2
  cases q with
  | idle | updating patch | deleting => trivial
  | lookingL1 f | entering f | lookingL2 f | repairing f | querying f
  | waiting f l => exact le_trans hq he
  | storingL2 f res | leaving f res | storingL1 f r => exact freshFrom_later hq h
  | answered f ans =>
    obtain ⟨o,ho,hans⟩ := hq
    exact ⟨o,freshFrom_later ho h,hans⟩
  | rereading w | droppingL1 w ans => exact fun n hn => (hq n hn).trans_le hl
  | droppingL2 w ans => exact fun n hn => ⟨(hq n hn).1.trans_le hl,(hq n hn).2.trans h1⟩
  | returning w ans => exact fun n hn => ⟨(hq n hn).1.trans h1,(hq n hn).2.trans h2⟩
  | returned w ans => exact fun n hn => (hq n hn).trans he

section

variable {c' : Config V A J} {i : ℕ} (h : Sound p id c)
  (hprocs : c'.procs = Function.update c.procs i q)
include h hprocs

lemma sound_move (hl : Later c.ledger c'.ledger) (hsh : Shared p id c') (hq : ProcOk p c'.ledger q)
    (he : ∀ l ≠ i, c'.results l = c.results l)
    (ha : ∀ o, Carries p c' i o →
      Carries p c i o ∨ FreshFrom c'.ledger.versions c'.ledger.returned o)
    (hi : ∀ f l, q = .waiting f l → ∀ o, Carries p c' l o →
      FreshFrom c'.ledger.versions f o) : Sound p id c' := by
  refine ⟨hsh,fun j => ?_,fun j f l hj o ho => ?_⟩
  · rw [hprocs]
    by_cases hji : j = i
    · rw [hji, update_self]
      exact hq
    · rw [update_of_ne hji]
      exact procOk_later hl (h.procs j)
  · rw [hprocs] at hj
    by_cases hji : j = i
    · rw [hji, update_self] at hj
      exact hi f l hj o ho
    rw [update_of_ne hji] at hj
    have hol : Carries p c l o → FreshFrom c'.ledger.versions f o := fun ho =>
      freshFrom_later (h.waits j f l hj o ho) hl
    by_cases hli : l = i
    · rw [hli] at ho hol
      have hf : f ≤ c.ledger.returned := by simpa [hj, ProcOk] using h.procs j
      rcases ha o ho with ho | ho
      · exact hol ho
      · exact freshFrom_weaken ho (hf.trans hl.returned)
    · refine hol ?_
      rwa [Carries, hprocs, update_of_ne hli, he l hli] at ho

lemma sound_put (hl : c'.ledger = c.ledger) (he : c'.results = c.results)
    (ha : Shared p id c') (hq : ProcOk p c.ledger q)
    (hhe : ∀ o, held p q = some o →
      held p (c.procs i) = some o ∨ FreshFrom c.ledger.versions c.ledger.returned o)
    (hj : ∀ f l, q = .waiting f l → ∀ o, Carries p c l o → FreshFrom c.ledger.versions f o) :
    Sound p id c' := by
  refine sound_move h hprocs (hl ▸ later_refl) ha (hl ▸ hq)
    (fun l _ => congrFun he l) (fun o ho => ?_) fun f l hw o ho => ?_
  · rw [Carries, hprocs, update_self, he] at ho
    rw [hl]
    rcases ho with ho | ho
    · exact (hhe o ho).imp_left .inl
    · exact .inl (.inr ho)
  · rw [hl]
    refine hj f l hw o ?_
    rw [Carries, hprocs, he] at ho
    by_cases hi : l = i
    · subst hi
      rw [update_self, hw] at ho
      exact .inr (ho.resolve_left (by simp [held]))
    · rwa [update_of_ne hi] at ho

end

lemma encode_of_fresh (h : Shared p id c) {n : ℕ} {j : J}
    (hf : FreshFrom c.ledger.versions n (.ok j)) : ∃ r, p.codec.decode j = some r ∧
      p.codec.encode r = j := by
  obtain ⟨tbl,ht⟩ := h.genuine _ (freshFrom_mem hf)
  obtain ⟨r,rfl⟩ := encode_of_answer ht.symm
  exact p.codec.recode r

lemma fresh_current (h : Shared p id c) {n : ℕ} (hn : n ≤ c.ledger.returned) :
    FreshFrom c.ledger.versions n (answer p c.table id) :=
  freshFrom_last h.current ((hn.trans h.ordered.returned1).trans_lt h.ordered.exists1)

lemma l1View_store {st : State V J} {r : Row V} {o : Except DbError J}
    (h : l1View p { st with l1 := st.l1.map fun l1 => storeNew l1 (p.keyPrefix ++ id) (.row r) }
      id = some o) :
    l1View p st id = some o ∨
      (∃ l1, st.l1 = some l1 ∧ l1 (p.keyPrefix ++ id) = none) ∧ o = .ok (p.codec.encode r) := by
  cases hs : st.l1 with
  | none => simp [l1View, hs] at h
  | some l1 =>
    cases hk : l1 (p.keyPrefix ++ id) with
    | none =>
      refine .inr ⟨⟨l1,rfl,hk⟩,?_⟩
      simpa [l1View, hs, storeNew, hk, l1JSON] using h.symm
    | some v =>
      refine .inl ?_
      simpa [l1View, hs, storeNew, hk] using h

lemma l2View_stored {st : State V J} {res : Except DbError (Row V)} {o : Except DbError J}
    (h : l2View p { st with l2 := stored p st.l2 (p.keyPrefix ++ id) res } id = some o) :
    l2View p st id = some o ∨ o = res.map p.codec.encode := by
  cases res with
  | ok r =>
    refine .inr ?_
    simpa [l2View, stored, l2Meaning, Except.map] using h.symm
  | error e =>
    cases e with
    | notFound =>
      cases hk : st.l2 (p.keyPrefix ++ id) with
      | none =>
        refine .inr ?_
        simpa [l2View, stored, storeNew, hk, l2Meaning, Except.map] using h.symm
      | some v =>
        refine .inl ?_
        simpa [l2View, stored, storeNew, hk] using h
    | noFields | invalidColumn col | query => exact .inl h

lemma sound_stage {i : ℕ} (h : Sound p id c) (fl : Option ℕ) (hq : ProcOk p c.ledger q)
    (he : ∀ o, held p q = some o →
      held p (c.procs i) = some o ∨ FreshFrom c.ledger.versions c.ledger.returned o)
    (hj : ∀ f l, q = .waiting f l → ∀ o, Carries p c l o → FreshFrom c.ledger.versions f o) :
    Sound p id (put { c with flight := fl } i q) :=
  sound_put h rfl rfl rfl { h with } hq he hj

lemma procOk_resume {f : ℕ} {a : Ledger (Except DbError J)} {res : Except DbError (Row V)}
    (he : FreshFrom a.versions f (res.map p.codec.encode)) : ProcOk p a (resume p f res) := by
  cases res with
  | ok r => exact he
  | error e => exact ⟨_,he,rfl⟩

lemma held_resume (f : ℕ) (res : Except DbError (Row V)) :
    held p (resume p f res : Proc V A J) = none := by
  cases res <;> rfl

lemma resume_ne_waiting (f f' l : ℕ) (res : Except DbError (Row V)) :
    (resume p f res : Proc V A J) ≠ .waiting f' l := by
  cases res <;> simp [resume]

section

variable {c c' : Config V A J} {i f : ℕ} (h : Sound p id c) {res : Except DbError (Row V)}
include h

lemma lookL1_sound (hf : f ≤ c.ledger.returned) :
    Sound p id (match c.l1.bind fun l1 => l1 (p.keyPrefix ++ id) with
      | some v => put c i (.answered f (.json 200 (l1JSON p v)))
      | none => put c i (.entering f)) := by
  cases hl : c.l1.bind fun l1 => l1 (p.keyPrefix ++ id) with
  | some v =>
    have he := h.l1 (.ok (l1JSON p v)) (by simp [l1View, hl])
    exact sound_stage h c.flight
      ⟨_,freshFrom_weaken he (hf.trans h.ordered.returned1),rfl⟩ (by simp [held]) (by simp)
  | none => exact sound_stage h c.flight hf (by simp [held]) (by simp)

lemma lookL2_sound (hf : f ≤ c.ledger.returned) :
    Sound p id (match c.l2 (p.keyPrefix ++ id) with
      | some .notFound => put c i (.leaving f (.error .notFound))
      | some (.json j) =>
        match p.codec.decode j with
        | some r => put c i (.leaving f (.ok r))
        | none => put c i (.repairing f)
      | none => put c i (.querying f)) := by
  have hi : ∀ v, c.l2 (p.keyPrefix ++ id) = some v →
      FreshFrom c.ledger.versions c.ledger.returned (l2Meaning v) := fun v hv =>
    freshFrom_weaken (h.l2 _ (by simp [l2View, hv])) h.ordered.returned2
  cases hl : c.l2 (p.keyPrefix ++ id) with
  | none => exact sound_stage h c.flight hf (by simp [held]) (by simp)
  | some v =>
    have hv := hi v hl
    cases v with
    | notFound =>
      refine sound_stage h c.flight (freshFrom_weaken hv hf) (fun o ho => .inr ?_) (by simp)
      cases ho
      exact hv
    | json j =>
      obtain ⟨r,hr,hn⟩ := encode_of_fresh h.toShared hv
      have he : FreshFrom c.ledger.versions c.ledger.returned (.ok (p.codec.encode r)) :=
        hn.symm ▸ hv
      simp only [hr]
      refine sound_stage h c.flight (freshFrom_weaken he hf) (fun o ho => .inr ?_) (by simp)
      cases ho
      exact he

lemma query_sound (hk : KeyLookup p.backend p.info) (hf : f ≤ c.ledger.returned) :
    Sound p id (put { c with table := (get p.backend p.info p.driver id c.table).1 } i
      (.storingL2 f (get p.backend p.info p.driver id c.table).2)) := by
  rw [get_eq hk]
  refine sound_stage h c.flight (fresh_current h.toShared hf) (fun o ho => .inr ?_) (by simp)
  cases ho
  exact fresh_current h.toShared le_rfl

lemma storeL2_sound (hpr : c.procs i = .storingL2 f res)
    (he : FreshFrom c.ledger.versions c.ledger.dropped2 (res.map p.codec.encode)) :
    Sound p id (put { c with l2 := stored p c.l2 (p.keyPrefix ++ id) res } i (.leaving f res)) := by
  have hi := h.procs i
  rw [hpr] at hi
  refine sound_put h rfl rfl rfl { h with l2 := fun o ho => ?_ } hi
    (fun o ho => .inl (by rw [hpr]; exact ho)) (by simp)
  rcases l2View_stored ho with ho | rfl
  · exact h.l2 o ho
  · exact he

lemma leave_sound (hpr : c.procs i = .leaving f res) :
    Sound p id (put { c with
      flight := none
      results := update c.results i (some (res.map p.codec.encode)) } i
      (resume p f res)) := by
  have hi := h.procs i
  rw [hpr] at hi
  refine sound_move h rfl later_refl { h with }
    (procOk_resume hi) (fun l hl => update_of_ne hl _ _) (fun o ho => .inl (.inl ?_))
    fun f' l hw => absurd hw (resume_ne_waiting f f' l res)
  rcases ho with ho | ho
  · simp [put, held_resume] at ho
  · rw [hpr]
    simpa [put, held] using ho

lemma wake_sound {l : ℕ} (hpr : c.procs i = .waiting f l)
    (hstep : getStep p id c i = some c') : Sound p id c' := by
  have hfr := h.waits i f l hpr
  simp only [getStep, hpr] at hstep
  cases hre : c.results l with
  | none => simp [hre] at hstep
  | some o =>
    have ho := hfr o (.inr hre)
    rw [hre] at hstep
    have hg : ∀ res : Except DbError (Row V), res.map p.codec.encode = o →
        Sound p id (put c i (resume p f res)) := fun res he =>
      sound_stage h c.flight (procOk_resume (he ▸ ho)) (by simp [held_resume])
        fun f' l' hw => absurd hw (resume_ne_waiting f f' l' res)
    cases o with
    | error e =>
      cases hstep
      exact hg (.error e) rfl
    | ok j =>
      obtain ⟨r,hr,hn⟩ := encode_of_fresh h.toShared ho
      simp only [hr] at hstep
      cases hstep
      exact hg (.ok r) (by rw [← hn]; rfl)

lemma storeL1_sound {r : Row V} (hpr : c.procs i = .storingL1 f r)
    (he : (∃ l1, c.l1 = some l1 ∧ l1 (p.keyPrefix ++ id) = none) →
      FreshFrom c.ledger.versions c.ledger.dropped1 (.ok (p.codec.encode r))) :
    Sound p id (put { c with l1 := c.l1.map fun l1 => storeNew l1 (p.keyPrefix ++ id) (.row r) } i
      (.answered f (.json 200 (p.codec.encode r)))) := by
  have hi := h.procs i
  rw [hpr] at hi
  refine sound_put h rfl rfl rfl { h with l1 := fun o ho => ?_ }
    ⟨_,hi,rfl⟩ (by simp [held]) (by simp)
  rcases l1View_store ho with ho | ⟨hn,rfl⟩
  · exact h.l1 o ho
  · exact he hn

lemma getStep_sound (hk : KeyLookup p.backend p.info) (hok : StepOk p id c (.tick i))
    (hstep : getStep p id c i = some c') : Sound p id c' := by
  have hi := h.procs i
  cases hpr : c.procs i with
  | lookingL1 f =>
    rw [hpr] at hi
    have hs := lookL1_sound (i := i) h hi
    simp only [getStep, hpr] at hstep
    split at hstep <;> rename_i hl <;> rw [hl] at hs <;> cases hstep <;> exact hs
  | entering f =>
    rw [hpr] at hi
    simp only [StepOk, hpr] at hok
    simp only [getStep, hpr] at hstep
    split at hstep
    · rename_i l hl
      cases hstep
      refine sound_stage h c.flight hi (by simp [held]) fun f' l' hw o ho => ?_
      cases hw
      exact hok l hl o ho
    · cases hstep
      exact sound_stage h (some i) hi (by simp [held]) (by simp)
  | lookingL2 f =>
    rw [hpr] at hi
    have hs := lookL2_sound (i := i) h hi
    simp only [getStep, hpr] at hstep
    split at hstep <;> rename_i hl <;> rw [hl] at hs
    · cases hstep
      exact hs
    · split at hstep <;> rename_i hd <;> simp only [hd] at hs <;> cases hstep <;> exact hs
    · cases hstep
      exact hs
  | repairing f =>
    rw [hpr] at hi
    simp only [getStep, hpr] at hstep
    cases hstep
    refine sound_put h rfl rfl rfl { h with l2 := fun o ho => ?_ } hi
      (by simp [held]) (by simp)
    simp [put, l2View, CachedCrud.drop] at ho
  | querying f =>
    rw [hpr] at hi
    simp only [getStep, hpr] at hstep
    cases hstep
    exact query_sound h hk hi
  | storingL2 f res =>
    simp only [StepOk, hpr] at hok
    simp only [getStep, hpr] at hstep
    cases hstep
    exact storeL2_sound h hpr hok
  | leaving f res =>
    simp only [getStep, hpr] at hstep
    cases hstep
    exact leave_sound h hpr
  | waiting f l => exact wake_sound h hpr hstep
  | storingL1 f r =>
    simp only [StepOk, hpr] at hok
    simp only [getStep, hpr] at hstep
    cases hstep
    exact storeL1_sound h hpr hok
  | _ => simp [getStep, hpr] at hstep

end

lemma sound_writer {c c' : Config V A J} {i : ℕ} (h : Sound p id c)
    (hprocs : c'.procs = update c.procs i q) (hl : Later c.ledger c'.ledger)
    (ha : Shared p id c') (hq : ProcOk p c'.ledger q) (he : c'.results = c.results)
    (hhe : held p q = none) (hi : ∀ f l, q ≠ .waiting f l) : Sound p id c' := by
  refine sound_move h hprocs hl ha hq (fun l _ => congrFun he l)
    (fun o ho => .inl (.inr ?_)) fun f l hw => absurd hw (hi f l)
  rwa [Carries, hprocs, update_self, hhe, he, or_iff_right (by simp)] at ho

lemma updateStmt_error {id : String}
    (hs : updateStmt p.backend p.info p.driver id patch tbl = (t,.error e)) : t = tbl := by
  rw [updateStmt] at hs
  split_ifs at hs
  · exact (congrArg Prod.fst hs).symm
  cases he : patchSets p.backend p.info p.driver patch with
  | error e' =>
    rw [he] at hs
    exact (congrArg Prod.fst hs).symm
  | ok sets =>
    simp only [he, query] at hs
    split at hs
    · exact (congrArg Prod.fst hs).symm
    · simp at hs

lemma updateStmt_none (hk : KeyLookup p.backend p.info) (hd : p.driver = .postgres) {res : Result V}
    (ho : (tbl.filter (denotes p.backend p.info id)).length ≤ 1)
    (hs : updateStmt p.backend p.info p.driver id patch tbl = (t,.ok res))
    (he : oneRow p.driver res.rows = .error e) : t = tbl := by
  have hu : update p.backend p.info p.driver id patch tbl = (t,.error e) := by
    rw [update_eq, hs]
    simp only [hd, reduceCtorEq, if_false]
    rw [← hd, he]
  rcases @update_cases _ _ _ _ p.driver hk id patch tbl (fun h => absurd hd h) with
    ⟨e',he'⟩ | ⟨sets,-,he'⟩
  · rw [hu] at he'
    exact congrArg Prod.fst he'
  · rw [hu, Prod.mk.injEq] at he'
    have hans := he'.2
    simp only [updateAnswer, hd] at hans
    have hn := oneRow_error (by simpa using ho) hans.symm
    rw [he'.1, assigned_of_none sets (map_eq_nil_iff.mp hn)]

section

variable {c c' : Config V A J} {i : ℕ} (h : Sound p id c)

lemma later_written (c : Config V A J) (t : Table V) : Later c.ledger (written p id c t).ledger :=
  ⟨prefix_append _ _,le_rfl,le_rfl,le_rfl⟩

include h

variable (t : Table V)

lemma shared_written : Shared p id (written p id c t) := by
  have hl : Later c.ledger (written p id c t).ledger := later_written c t
  refine ⟨by simp [written],fun o ho => ?_,⟨h.ordered.returned1,h.ordered.returned2,
    h.ordered.exists1.trans_le (later_length hl),
    h.ordered.exists2.trans_le (later_length hl)⟩,
    fun o ho => freshFrom_later (h.l1 o ho) hl,fun o ho => freshFrom_later (h.l2 o ho) hl⟩
  simp only [written, mem_append, mem_singleton] at ho
  rcases ho with ho | ho
  · exact h.genuine o ho
  · exact ⟨t,ho⟩

lemma written_sound {q : Proc V A J} (hq : ProcOk p (written p id c t).ledger q)
    (he : held p q = none) (ha : ∀ f l, q ≠ .waiting f l) :
    Sound p id (put (written p id c t) i q) := by
  have hs := shared_written h t
  exact sound_writer h rfl (later_written c t) { hs with } hq rfl
    he ha

lemma wrote_sound {ans : Answer J} : Sound p id (put (written p id c t) i
    (.droppingL1 (some c.ledger.versions.length) ans)) :=
  written_sound h _ (by simp [ProcOk, written]) rfl (by simp)

variable [DecidableEq J]

lemma failed_sound (e : DbError) : Sound p id (put (written p id c c.table) i
    (.returning (changedVersion p id c c.table) (failure e))) :=
  written_sound h _ (by simp [ProcOk, changedVersion]) rfl (by simp)

omit h in
lemma wroteVersion_lt : ∀ n ∈ wroteVersion p id c t,
    n < (written p id c t).ledger.versions.length := by
  intro n hn
  simp only [wroteVersion, changedVersion, mem_def] at hn
  split_ifs at hn <;> cases hn <;> simp [written]

lemma update_sound (hk : KeyLookup p.backend p.info) (hd : p.driver ≠ .turso)
    {patch : GoMap A} (ho : c.procs i = .updating patch) (hok : StepOk p id c (.tick i))
    (hstep : writeStep p id c i = some c') : Sound p id c' := by
  simp only [StepOk, ho] at hok
  simp only [writeStep, ho] at hstep
  rcases hs : updateStmt p.backend p.info p.driver id patch c.table with ⟨t,e | res⟩
  · simp only [hs, some.injEq] at hstep
    have ht := updateStmt_error hs
    subst ht hstep
    exact failed_sound h e
  · simp only [hs] at hstep
    by_cases hm : p.driver = .mysql
    · rw [if_pos hm, some.injEq] at hstep
      subst hstep
      exact written_sound h t (wroteVersion_lt t) rfl (by simp)
    · have hg : p.driver = .postgres := by
        cases hdr : p.driver with
        | postgres => rfl
        | mysql => exact absurd hdr hm
        | turso => exact absurd hdr hd
      rw [if_neg hm] at hstep
      cases hro : oneRow p.driver res.rows with
      | error e =>
        simp only [hro, some.injEq] at hstep
        have ht := updateStmt_none hk hg (hok hg) hs hro
        subst ht hstep
        exact failed_sound h e
      | ok r =>
        simp only [hro, some.injEq] at hstep
        subst hstep
        exact wrote_sound h t

lemma reread_sound (hk : KeyLookup p.backend p.info) {w : Option ℕ} (ho : c.procs i = .rereading w)
    (hok : StepOk p id c (.tick i)) (hstep : writeStep p id c i = some c') : Sound p id c' := by
  have hi := h.procs i
  rw [ho] at hi
  simp only [StepOk, ho] at hok
  simp only [writeStep, ho, get_eq hk] at hstep
  have ha : ∀ q, Shared p id (put { c with table := c.table } i q) := fun q =>
    { h with }
  cases hl : lookup p.backend p.info p.driver id c.table with
  | ok r =>
    simp only [hl, some.injEq] at hstep
    subst hstep
    exact sound_writer h rfl later_refl (ha _) hi rfl rfl (by simp)
  | error e =>
    simp only [hl, some.injEq] at hstep
    subst hstep
    cases w with
    | none => exact sound_writer h rfl later_refl (ha _) (by simp [ProcOk]) rfl rfl (by simp)
    | some n =>
      obtain ⟨r,hr⟩ := hok
      simp [hl] at hr

lemma delete_sound (hk : KeyLookup p.backend p.info) (ho : c.procs i = .deleting)
    (hstep : writeStep p id c i = some c') : Sound p id c' := by
  simp only [writeStep, ho] at hstep
  rcases delete_cases hk id c.table with ⟨e,he⟩ | he
  · simp only [he, some.injEq] at hstep
    subst hstep
    exact failed_sound h e
  · simp only [he, some.injEq] at hstep
    subst hstep
    exact wrote_sound h _

omit h in
lemma version_of {P : ℕ → Prop} (w : Option ℕ) (h0 : P 0) (hw : ∀ n, w = some n → P n) :
    P (w.getD 0) := by
  cases w with
  | none => exact h0
  | some n => exact hw n rfl

section

variable {w : Option ℕ} {ans : Answer J} (hstep : writeStep p id c i = some c')
include hstep

lemma drop1_sound (hpr : c.procs i = .droppingL1 w ans) : Sound p id c' := by
  have hi := h.procs i
  rw [hpr] at hi
  simp only [writeStep, hpr, some.injEq] at hstep
  subst hstep
  have hor := h.ordered
  have hw : w.getD 0 < c.ledger.versions.length :=
    @version_of (· < c.ledger.versions.length) w (Nat.zero_lt_of_lt hor.exists1)
      fun n hn => hi n hn
  refine sound_writer h rfl ⟨prefix_refl _,le_rfl,le_max_left _ _,le_rfl⟩
    ⟨h.current,h.genuine,⟨hor.returned1.trans (le_max_left _ _),hor.returned2,
      max_lt hor.exists1 hw,hor.exists2⟩,fun o ho => ?_,h.l2⟩ (fun n hn => ?_) rfl rfl (by simp)
  · cases hs : c.l1 <;> simp [put, l1View, CachedCrud.drop, hs] at ho
  · cases hn
    exact ⟨hi n rfl,le_max_right _ _⟩

lemma drop2_sound (hpr : c.procs i = .droppingL2 w ans) : Sound p id c' := by
  have hi := h.procs i
  rw [hpr] at hi
  simp only [writeStep, hpr, some.injEq] at hstep
  subst hstep
  have hor := h.ordered
  have hw : w.getD 0 < c.ledger.versions.length :=
    @version_of (· < c.ledger.versions.length) w (Nat.zero_lt_of_lt hor.exists1)
      fun n hn => (hi n hn).1
  refine sound_writer h rfl ⟨prefix_refl _,le_rfl,le_rfl,le_max_left _ _⟩
    ⟨h.current,h.genuine,⟨hor.returned1,hor.returned2.trans (le_max_left _ _),hor.exists1,
      max_lt hor.exists2 hw⟩,h.l1,fun o ho => ?_⟩ (fun n hn => ?_) rfl rfl (by simp)
  · simp [put, l2View, CachedCrud.drop] at ho
  · cases hn
    exact ⟨(hi n rfl).2,le_max_right _ _⟩

lemma return_sound (ho : c.procs i = .returning w ans) : Sound p id c' := by
  have hi := h.procs i
  rw [ho] at hi
  simp only [writeStep, ho, some.injEq] at hstep
  subst hstep
  have hor := h.ordered
  have hw : w.getD 0 ≤ c.ledger.dropped1 ∧ w.getD 0 ≤ c.ledger.dropped2 :=
    @version_of (fun n => n ≤ c.ledger.dropped1 ∧ n ≤ c.ledger.dropped2) w
      ⟨Nat.zero_le _,Nat.zero_le _⟩ fun n hn => hi n hn
  refine sound_writer h rfl ⟨prefix_refl _,le_max_left _ _,le_rfl,le_rfl⟩
    ⟨h.current,h.genuine,⟨max_le hor.returned1 hw.1,max_le hor.returned2 hw.2,hor.exists1,
      hor.exists2⟩,h.l1,h.l2⟩ (fun n hn => ?_) rfl rfl (by simp)
  cases hn
  exact le_max_right _ _

end

lemma writeStep_sound (hk : KeyLookup p.backend p.info) (hd : p.driver ≠ .turso)
    (hok : StepOk p id c (.tick i)) (hstep : writeStep p id c i = some c') : Sound p id c' := by
  cases ho : c.procs i with
  | updating patch => exact update_sound h hk hd ho hok hstep
  | rereading w => exact reread_sound h hk ho hok hstep
  | deleting => exact delete_sound h hk ho hstep
  | droppingL1 w ans => exact drop1_sound h hstep ho
  | droppingL2 w ans => exact drop2_sound h hstep ho
  | returning w ans => exact return_sound h hstep ho
  | _ => simp [writeStep, ho] at hstep

end

end SdkApi.StaleReads
