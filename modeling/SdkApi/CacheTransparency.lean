import SdkApi.CachedCrud
import SdkApi.KeyedTable
import SdkApi.ReadThrough
import SdkApi.GuardedRuns

/-!
# When the cache does not show

A Get through the caches answers like the table as long as both caches are
coherent with it. Updates and deletes drop the entries of the id they are
called with and of no other, creates drop none, and the rows with which L1 is
warmed are stored as byte slices. The condition on a step says that nothing
cached is affected by what it does not drop.
-/

namespace SdkApi.CacheTransparency
open GoStrings SqlEngine Tables TableQueries CrudProviders KeyedTable CachedCrud ReadThrough
open Option Function
open GuardedRuns

variable {V A J : Type} (p : CachedProvider V A J)

def answer (tbl : Table V) (id : String) : Except DbError J :=
  (lookup p.backend p.info p.driver id tbl).map p.codec.encode

def l2Meaning : L2Value J → Except DbError J
  | .json j => .ok j
  | .notFound => .error .notFound

def l1View (st : State V J) (id : String) : Option (Except DbError J) :=
  (st.l1.bind fun l1 => l1 (p.keyPrefix ++ id)).map fun v => .ok (l1JSON p v)

def l2View (st : State V J) (id : String) : Option (Except DbError J) :=
  (st.l2 (p.keyPrefix ++ id)).map l2Meaning

structure Transparent (st : State V J) : Prop where
  l1 : Coherent (answer p st.table) (l1View p st)
  l2 : Coherent (answer p st.table) (l2View p st)

def Cached (st : State V J) (id : String) : Prop := l1View p st id ≠ none ∨ l2View p st id ≠ none

/-- No other cached id denotes a row that this one denotes. -/
def Unaliased (st : State V J) (id : String) : Prop :=
  ∀ id' ≠ id, Cached p st id' → ∀ r ∈ st.table,
    ¬ (denotes p.backend p.info id r = true ∧ denotes p.backend p.info id' r = true)

def StepOk (st : State V J) : Event A → Prop
  | .request (.create (some en)) => ∀ id, Cached p st id →
      denotes p.backend p.info id (inserted p.backend p.info p.driver en st.table) = false
  | .request (.update id (some patch)) =>
      KeepsKey p.backend p.info p.driver id patch st.table ∧
      (st.table.filter (denotes p.backend p.info id)).length ≤ 1 ∧ Unaliased p st id
  | .request (.delete id) => Unaliased p st id
  | _ => True

def warmed (tbl : Table V) : List (Row V) :=
  match p.driver, queryPaginated p.backend p.info 1 100 "" tbl with
  | .postgres, (_,.ok (rows,_)) => rows
  | _, _ => []

def WarmOk (hasL1 : Bool) (tbl : Table V) : Prop :=
  hasL1 = true → ∀ r ∈ warmed p tbl, extractID p r ≠ "" →
    hasPrefix (extractID p r) p.keyPrefix = false

def answerOf : Except DbError J → Answer J
  | .ok j => .json 200 j
  | .error .notFound => .message 404 (notFoundText p)
  | .error e => .failed e

variable {p}

lemma plainGet_eq (hk : KeyLookup p.backend p.info) (id : String) (tbl : Table V) :
    plainGet p id tbl = answerOf p (answer p tbl id) := by
  rw [plainGet, get_eq hk, answer]
  cases lookup p.backend p.info p.driver id tbl with
  | ok r => rfl
  | error e => cases e <;> rfl

lemma key_inj {id id' : String} (h : p.keyPrefix ++ id = p.keyPrefix ++ id') : id = id' := by
  have hl := congrArg String.toList h
  simp only [String.toList_append, List.append_cancel_left_eq] at hl
  exact String.toList_injective hl

variable {tbl : Table V} {st : State V J} {ha : Bool}

lemma encode_of_answer {id : String} {j : J} (h : answer p tbl id = .ok j) :
    ∃ r, p.codec.encode r = j := by
  rw [answer] at h
  cases hl : lookup p.backend p.info p.driver id tbl with
  | error e => simp [hl, Except.map] at h
  | ok r => exact ⟨r,by simpa [hl, Except.map] using h⟩

lemma doTake_spec (hk : KeyLookup p.backend p.info)
    (h : Coherent (answer p st.table) (l2View p st)) (id : String) :
    ∃ l2' res, doTake p.codec st.l2 (p.keyPrefix ++ id) (get p.backend p.info p.driver id)
        st.table = (st.table,l2',res) ∧
      res.map p.codec.encode = answer p st.table id ∧
      (∀ key ≠ p.keyPrefix ++ id, l2' key = st.l2 key) ∧
      ∀ v, l2' (p.keyPrefix ++ id) = some v → l2Meaning v = answer p st.table id := by
  have hi : ∀ v, st.l2 (p.keyPrefix ++ id) = some v → answer p st.table id = l2Meaning v := by
    intro v hv
    exact h id _ (by simp [l2View, hv])
  cases hl : st.l2 (p.keyPrefix ++ id) with
  | some v =>
    have ha := hi v hl
    cases v with
    | notFound =>
      refine ⟨st.l2,.error .notFound,by simp only [doTake, hl],ha.symm,fun _ _ => rfl,?_⟩
      intro v hv
      exact (hi v hv).symm
    | json j =>
      obtain ⟨r,rfl⟩ := encode_of_answer ha
      obtain ⟨r',hr',he⟩ := p.codec.recode r
      refine ⟨st.l2,.ok r',by simp only [doTake, hl, hr'],?_,fun _ _ => rfl,?_⟩
      · rw [ha, l2Meaning, Except.map, he]
      · intro v hv
        exact (hi v hv).symm
  | none =>
    simp only [doTake, hl, get_eq hk, load]
    cases ho : lookup p.backend p.info p.driver id st.table with
    | ok r =>
      refine ⟨_,_,rfl,by simp [answer, ho],fun key hn => update_of_ne hn _ _,?_⟩
      intro v hv
      rw [update_self, some.injEq] at hv
      rw [← hv, answer, ho]
      rfl
    | error e =>
      have hans : answer p st.table id = .error e := by
        rw [answer, ho]
        rfl
      cases e with
      | notFound =>
        refine ⟨_,_,rfl,hans.symm,fun key hn => ?_,fun v hv => ?_⟩
        · simp [storeNew, hl, update_of_ne hn]
        · simp only [storeNew, hl, isSome_none, Bool.false_eq_true, if_false,
            update_self, some.injEq] at hv
          rw [← hv, hans]
          rfl
      | noFields | invalidColumn c | query => exact ⟨_,_,rfl,hans.symm,fun _ _ => rfl,by simp [hl]⟩

lemma cachedGet_spec (hk : KeyLookup p.backend p.info) (h : Transparent p st) (id : String) :
    (cachedGet p id st).2 = plainGet p id st.table ∧ Transparent p (cachedGet p id st).1 ∧
      (cachedGet p id st).1.table = st.table := by
  rw [plainGet_eq hk]
  cases hl1 : st.l1.bind fun l1 => l1 (p.keyPrefix ++ id) with
  | some v =>
    have ha : answer p st.table id = .ok (l1JSON p v) := h.l1 id _ (by simp [l1View, hl1])
    simp only [cachedGet, hl1]
    exact ⟨by rw [ha, answerOf],h,trivial⟩
  | none =>
    obtain ⟨l2',res,ht,hre,ho,hl⟩ := doTake_spec hk h.l2 id
    have hl2 : ∀ l1, Coherent (answer p st.table) (l2View p (⟨st.table,l1,l2'⟩ : State V J)) := by
      intro l1
      refine coherent_store h.l2 id (fun r hr => ?_) fun id' hne => ?_
      · obtain ⟨v,hv,rfl⟩ := map_eq_some_iff.mp hr
        exact (hl v hv).symm
      · simp only [l2View, ho _ fun he => hne (key_inj he)]
    simp only [cachedGet, hl1, ht]
    cases res with
    | error e =>
      have ha : answer p st.table id = .error e := hre.symm
      cases e with
      | notFound | noFields | invalidColumn c | query => exact ⟨by rw [ha]; rfl,⟨h.l1,hl2 _⟩,rfl⟩
    | ok r =>
      have ha : answer p st.table id = .ok (p.codec.encode r) := hre.symm
      refine ⟨by rw [ha]; rfl,⟨?_,hl2 _⟩,rfl⟩
      -- L1 had no entry under this key, so that the new one is stored
      cases hs : st.l1 with
      | none =>
        intro id' r' hr'
        simp [l1View] at hr'
      | some l1 =>
        have hn : l1 (p.keyPrefix ++ id) = none := by simpa [hs] using hl1
        have hc := h.l1
        refine coherent_store hc id (fun r' hr' => ?_) fun id' hne => ?_
        · simp only [l1View, map_some, bind_some, storeNew, hn,
            isSome_none, Bool.false_eq_true, if_false, update_self,
            some.injEq] at hr'
          rw [ha, ← hr']
          rfl
        · simp only [l1View, hs, map_some, bind_some, storeNew, hn,
            isSome_none, Bool.false_eq_true, if_false]
          rw [update_of_ne fun he => hne (key_inj he)]

lemma transparent_write (h : Transparent p st) (tbl : Table V)
    (ha : ∀ id, Cached p st id → answer p tbl id = answer p st.table id) :
    Transparent p { st with table := tbl } where
  l1 := coherent_change h.l1 fun id hi => ha id (.inl hi)
  l2 := coherent_change h.l2 fun id hi => ha id (.inr hi)

lemma l1View_delCache (st : State V J) (id id' : String) :
    l1View p (delCache p id st) id' = if id' = id then none else l1View p st id' := by
  cases hs : st.l1 with
  | none => simp [l1View, delCache, hs]
  | some l1 =>
    by_cases he : id' = id
    · subst he
      simp [l1View, delCache, hs, CachedCrud.drop]
    · simp [l1View, delCache, hs, CachedCrud.drop, he]

lemma l2View_delCache (st : State V J) (id id' : String) :
    l2View p (delCache p id st) id' = if id' = id then none else l2View p st id' := by
  by_cases he : id' = id
  · subst he
    simp [l2View, delCache, CachedCrud.drop]
  · simp [l2View, delCache, CachedCrud.drop, he]

lemma transparent_delCache (h : Transparent p st) (tbl : Table V) (id : String)
    (ha : ∀ id' ≠ id, Cached p st id' → answer p tbl id' = answer p st.table id') :
    Transparent p (delCache p id { st with table := tbl }) := by
  constructor
  · intro id' r hr
    rw [l1View_delCache] at hr
    split_ifs at hr with he
    exact (ha id' he (.inl (by rw [show l1View p st id' = some r from hr]; simp))).trans
      (h.l1 id' r hr)
  · intro id' r hr
    rw [l2View_delCache] at hr
    split_ifs at hr with he
    exact (ha id' he (.inr (by rw [show l2View p st id' = some r from hr]; simp))).trans
      (h.l2 id' r hr)

lemma cachedCreate_table (en : Entity A) (st : State V J) :
    (cachedCreate p (some en) st).1 =
      { st with table := (create p.backend p.info p.driver en st.table).1 } := by
  rw [cachedCreate]
  rcases create p.backend p.info p.driver en st.table with ⟨t,e | r | en'⟩ <;> rfl

section

variable (hk : KeyLookup p.backend p.info) (h : Transparent p st)
include hk h

lemma create_transparent (body : Option (Entity A))
    (hok : StepOk p st (.request (.create body))) : Transparent p (cachedCreate p body st).1 := by
  cases body with
  | none => exact h
  | some en =>
    rw [cachedCreate_table]
    refine transparent_write h _ fun id hi => ?_
    rw [answer, answer, create_lookup hk (hok id hi)]

lemma update_transparent {id : String} {body : Option (GoMap A)}
    (hok : StepOk p st (.request (.update id body))) :
    Transparent p (cachedUpdate p id body st).1 := by
  cases body with
  | none => exact h
  | some patch =>
    obtain ⟨hy,hn,ha⟩ := hok
    have ho : ∀ id' ≠ id, Cached p st id' →
        answer p (update p.backend p.info p.driver id patch st.table).1 id' =
          answer p st.table id' := by
      intro id' hne hi
      rw [answer, answer, update_other hk hy (ha id' hne hi)]
    have hl := fun e => @update_error _ _ _ _ _ hk id patch st.table hy hn e
    rw [cachedUpdate]
    generalize update p.backend p.info p.driver id patch st.table = out at ho hl ⊢
    obtain ⟨t,e | r⟩ := out
    · refine transparent_write h t fun id' hi => ?_
      by_cases he : id' = id
      · rw [he, answer, answer]
        exact congrArg _ (hl e rfl)
      · exact ho id' he hi
    · exact transparent_delCache h t id ho

lemma delete_transparent (id : String) (hok : StepOk p st (.request (.delete id))) :
    Transparent p (cachedDelete p id st).1 := by
  have ho : ∀ id' ≠ id, Cached p st id' →
      answer p (delete p.backend p.info id st.table).1 id' = answer p st.table id' := by
    intro id' hn hi
    rw [answer, answer, delete_other hk (hok id' hn hi)]
  rw [cachedDelete]
  rcases delete_cases hk id st.table with ⟨e,he⟩ | he
  · rw [he]
    exact h
  · rw [he] at ho ⊢
    exact transparent_delCache h _ id ho

end

lemma evict_transparent (h : Transparent p st) (key : String) :
    Transparent p (act p st (.evict key : Event A)) := by
  refine ⟨coherent_subset h.l1 fun id r hr => ?_,h.l2⟩
  cases hs : st.l1 with
  | none => simp [act, l1View, hs] at hr
  | some l1 =>
    by_cases he : p.keyPrefix ++ id = key
    · simp [act, l1View, hs, CachedCrud.drop, he] at hr
    · simpa [act, l1View, hs, CachedCrud.drop, update_of_ne he] using hr

section

variable (hk : KeyLookup p.backend p.info)
include hk

lemma act_transparent {st : State V J} (h : Transparent p st)
    {e : Event A} (hok : StepOk p st e) : Transparent p (act p st e) := by
  cases e with
  | evict key => exact evict_transparent h key
  | request req =>
    cases req with
    | list q => exact h
    | get id => exact (cachedGet_spec hk h id).2.1
    | create body => exact create_transparent hk h body hok
    | update id body => exact update_transparent hk h hok
    | delete id => exact delete_transparent hk h id hok

lemma queryPaginated_spec (pg size : ℤ) (tbl : Table V) :
    (∃ e, queryPaginated p.backend p.info pg size "" tbl = (tbl,.error e)) ∨
      ∃ rows total, queryPaginated p.backend p.info pg size "" tbl = (tbl,.ok (rows,total)) ∧
        ∀ r ∈ rows, r ∈ tbl := by
  have hl := plain_of_known hk.known
  simp only [queryPaginated, offsetOrder, if_true, TableQueries.count, countOf, query]
  cases hc : p.backend.exec (.count []) tbl with
  | none => exact .inl ⟨_,rfl⟩
  | some rc =>
    obtain ⟨rfl,-⟩ := exec_plain hc (by simp [Stmt.idents])
    simp only [Engine.meaning, rowsOf]
    generalize (if size < 1 then 10 else size) = n
    generalize (if pg < 1 then 1 else pg) = m
    cases hs : p.backend.exec (.select [] [p.info.primaryKey] (some n.toNat)
        (some ((m-1)*n).toNat)) tbl with
    | none => exact .inl ⟨_,rfl⟩
    | some rs =>
      obtain ⟨rfl,-⟩ := exec_plain hs (by simp [Stmt.idents, hl])
      exact .inr ⟨_,_,rfl,fun r hr => (mem_select hr).1⟩

lemma mem_warmed {tbl : Table V} {r : Row V} (h : r ∈ warmed p tbl) : r ∈ tbl := by
  rcases queryPaginated_spec hk 1 100 tbl with ⟨e,he⟩ | ⟨rows,total,he,ho⟩
  · cases hd : p.driver <;> simp [warmed, he, hd] at h
  · cases hd : p.driver with
    | postgres =>
      simp only [warmed, he, hd] at h
      exact ho r h
    | mysql | turso => simp [warmed, hd] at h

lemma warmCache_table (ha : Bool) (tbl : Table V) : (warmCache p ha tbl).table = tbl := by
  rcases queryPaginated_spec hk 1 100 tbl with ⟨e,he⟩ | ⟨rows,total,he,-⟩
  · cases hd : p.driver <;> simp [warmCache, he, hd]
  · cases hd : p.driver <;> simp [warmCache, he, hd]

end

lemma warm_keys {rows : List (Row V)} {l1 : KV (L1Value V J)} {key : String}
    (h : rows.foldl (warmRow p) l1 key ≠ none) :
    l1 key ≠ none ∨ ∃ r ∈ rows, extractID p r = key ∧ key ≠ "" := by
  induction rows generalizing l1 with
  | nil => exact .inl h
  | cons r rows ih =>
    rcases ih h with hw | ⟨r',hr',hi⟩
    · by_cases he : extractID p r = ""
      · rw [warmRow, if_pos he] at hw
        exact .inl hw
      · by_cases hy : key = extractID p r
        · exact .inr ⟨r,by simp,hy.symm,hy ▸ he⟩
        · refine .inl ?_
          rw [warmRow, if_neg he, storeNew] at hw
          split_ifs at hw
          · exact hw
          · rwa [update_of_ne hy] at hw
    · exact .inr ⟨r',by simp [hr'],hi⟩

lemma not_cached_warm (hw : WarmOk p ha tbl) (id : String) :
    ¬ Cached p (warmCache p ha tbl) id := by
  rintro (hne | hne)
  · obtain ⟨l1,hs,hy⟩ : ∃ l1, (warmCache p ha tbl).l1 = some l1 ∧
        l1 (p.keyPrefix ++ id) ≠ none := by
      cases hs : (warmCache p ha tbl).l1 with
      | none => simp [l1View, hs] at hne
      | some l1 => exact ⟨l1,rfl,by simpa [l1View, hs] using hne⟩
    cases ha with
    | false =>
      simp only [warmCache, Bool.false_eq_true, if_false] at hs
      split at hs
      · split at hs <;> simp at hs
      · simp at hs
    | true =>
      have ho : l1 = (warmed p tbl).foldl (warmRow p) fun _ => none := by
        simp only [warmCache, if_true, warmed] at hs ⊢
        cases hd : p.driver with
        | postgres =>
          simp only [hd] at hs
          split at hs <;> rename_i hq <;> simp only [hq]
          · simpa using hs.symm
          · simpa using hs.symm
        | mysql | turso => simpa [hd] using hs.symm
      subst ho
      rcases warm_keys hy with hn | ⟨r,hr,hi,hn'⟩
      · simp at hn
      · have he := hw rfl r hr (hi ▸ hn')
        rw [hi, hasPrefix_append] at he
        simp at he
  · refine hne ?_
    simp only [l2View, warmCache]
    split
    · split <;> rfl
    · rfl

lemma warm_transparent (hw : WarmOk p ha tbl) :
    Transparent p (warmCache p ha tbl) where
  l1 id r hr := absurd (.inl (by simp [hr])) (not_cached_warm hw id)
  l2 id r hr := absurd (.inr (by simp [hr])) (not_cached_warm hw id)

/-- Along every run whose steps meet the condition, a Get answers what the
table answers at that point. -/
theorem run_transparent (hk : KeyLookup p.backend p.info) (hasL1 : Bool) (tbl : Table V)
    (hw : WarmOk p hasL1 tbl) {es : List (Event A)} {st : State V J}
    (h : Run (fun st e st' => act p st e = st') (StepOk p) (warmCache p hasL1 tbl) es st)
    (id : String) : (cachedGet p id st).2 = plainGet p id st.table := by
  have hst : Transparent p st := by
    refine run_invariant (Transparent p) (fun s e t hs hok hstep => ?_) h (warm_transparent hw)
    exact hstep ▸ act_transparent hk hs hok
  exact (cachedGet_spec hk hst id).1

/-- A model with a text key and a note, cached under `order:<id>`. -/
def cachedOrders : CachedProvider String String (String × String) where
  backend := textBackend ["id","note"]
  info := ⟨[⟨"id","ID",true,false,false,false,true,"id"⟩,
    ⟨"note","Note",false,false,false,false,true,"note"⟩],"id"⟩
  driver := .postgres
  keyPrefix := "order:"
  codec := {
    encode := fun r => (r "id",r "note")
    encodeEntity := fun en => (en "ID",en "Note")
    bytes := fun j => ("",j.1 ++ j.2)
    decode := fun j => some fun col => if col = "id" then j.1 else j.2
    recode := fun _ => ⟨_,rfl,rfl⟩ }

lemma cachedOrders_lookup : KeyLookup cachedOrders.backend cachedOrders.info where
  known := by decide
  names := by decide
  refused _ _ _ := rfl

def order7 : Entity String := fun name => if name = "ID" then "7" else "new"

lemma cachedOrders_warm : WarmOk cachedOrders true [] := by
  intro _ r hr
  simpa using mem_warmed cachedOrders_lookup hr

theorem transparent_after_create :
    KeyLookup cachedOrders.backend cachedOrders.info ∧
    (cachedGet cachedOrders "7" (act cachedOrders (warmCache cachedOrders true [])
        (.request (.create (some order7))))).2 =
      plainGet cachedOrders "7" (act cachedOrders (warmCache cachedOrders true [])
        (.request (.create (some order7)))).table := by
  refine ⟨cachedOrders_lookup,run_transparent cachedOrders_lookup true [] cachedOrders_warm
    (.cons ?_ rfl (.nil _)) "7"⟩
  intro id hi
  exact absurd hi (not_cached_warm cachedOrders_warm id)

def missed : State String (String × String) :=
  ⟨[],none,Function.update (fun _ => none) "order:7" (some .notFound)⟩

lemma missed_eq : act cachedOrders (warmCache cachedOrders false [])
    (.request (.get "7") : Event String) = missed := by
  have ht : warmCache cachedOrders false [] = ⟨[],none,fun _ => none⟩ := by
    rcases queryPaginated_spec cachedOrders_lookup 1 100 [] with ⟨e,he⟩ | ⟨rows,total,he,-⟩
    · simp [warmCache, he, show cachedOrders.driver = .postgres from rfl]
    · simp [warmCache, he, show cachedOrders.driver = .postgres from rfl]
  rw [ht]
  simp only [act, cachedServe, cachedGet, bind_none, doTake, get_eq cachedOrders_lookup]
  rfl

/-- A row that is created after its id was looked up in vain is not found. -/
theorem created_after_miss_not_found :
    KeyLookup cachedOrders.backend cachedOrders.info ∧ WarmOk cachedOrders false [] ∧
    ∃ st, Run (fun st e st' => act cachedOrders st e = st') (fun _ _ => True)
      (warmCache cachedOrders false [])
      [.request (.get "7"),.request (.create (some order7))] st ∧
      (cachedGet cachedOrders "7" st).2 = .message 404 "not found" ∧
      plainGet cachedOrders "7" st.table = .json 200 ("7","new") := by
  refine ⟨cachedOrders_lookup,fun h => absurd h (by decide),
    act cachedOrders missed (.request (.create (some order7))),
    .cons trivial missed_eq (.cons trivial rfl (.nil _)),by rfl,?_⟩
  rw [plainGet_eq cachedOrders_lookup]
  rfl

end SdkApi.CacheTransparency
