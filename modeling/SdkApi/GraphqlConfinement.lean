import SdkApi.GraphqlAccess

/-!
# When GraphQL gives no more than HTTP

The resolvers select rows by key or by page; the routes of the crud entry
add the tenant condition. They agree on a row exactly when it meets that
condition for the caller.
-/

namespace SdkApi.GraphqlConfinement
open GoStrings HandlerChain RequestContext SqlEngine Tables TableQueries CrudProviders KeyedTable
open List hiding count lookup
open TenantScope ScopedEquivalence RequestEffects CrudEntry GraphqlResolvers GraphqlAccess

variable {V A : Type}

section

variable {p : Provider V A} {tbl : Table V} {r : Row V} {q : ListParams} {id : String}

lemma shown_get (hk : KeyLookup p.backend p.info) (id : String) :
    r ∈ shown (serve p (tenantInfo none) (.get id) tbl).2 ↔
      lookup p.backend p.info p.driver id tbl = .ok r := by
  have hs : (tenantInfo none).scoped = false := rfl
  simp only [serve, serveGet, hs, Bool.false_eq_true, if_false, get_eq hk]
  cases lookup p.backend p.info p.driver id tbl with
  | ok r' => simp [finish, shown, eq_comm]
  | error e => cases e <;> simp [finish, errReply, shown]

lemma shown_errReply (id : String) (e : DbError) : shown (errReply id e : Reply V A) = [] := by
  cases e <;> rfl

lemma shown_update_unplanned {body : Option (GoMap A)} (hpl : planned p id body = none) :
    shown (serveUpdate p (tenantInfo none) id body tbl).2 = [] := by
  have hs : (tenantInfo none).scoped = false := rfl
  cases body with
  | none => rfl
  | some req =>
    cases hb : p.hooks.beforeUpdate id req with
    | error e => simp [serveUpdate, hb, shown]
    | ok patch =>
      simp only [planned, hb] at hpl
      simp only [serveUpdate, hb, hs, Bool.false_eq_true, if_false, update]
      split_ifs at hpl ⊢ with hm
      · rfl
      · cases he : patchSets p.backend p.info p.driver (resolveBody p patch) with
        | error e => exact shown_errReply id e
        | ok sets => simp [he, Except.toOption] at hpl

section

variable (hk : KeyLookup p.backend p.info) {id : String} {body : Option (GoMap A)}
  (hn : Named p (.update id body)) {sets : List (String × A)} (hpl : planned p id body = some sets)
include hk hn hpl

lemma shown_update_refused (ha : acceptsUpdate p id sets tbl = false) :
    shown (serveUpdate p (tenantInfo none) id body tbl).2 = [] := by
  rw [serveUpdate_answer hk rfl hn hpl, ha]
  rfl

lemma shown_update (ha : acceptsUpdate p id sets tbl) :
    r ∈ shown (serveUpdate p (tenantInfo none) id body tbl).2 ↔ answered p id sets tbl = .ok r := by
  rw [serveUpdate_answer hk rfl hn hpl, if_pos ha]
  cases answered p id sets tbl with
  | ok r' => simp [finish, shown, eq_comm]
  | error e => cases e <;> simp [finish, errReply, shown]

end

lemma count_all (tbl : Table V) : count p.backend p.info [] tbl =
    (tbl,if p.backend.fails (.count []) tbl then .error .query else .ok tbl.length) := by
  have ha : p.backend.satisfies ([] : List (Cond A)) = fun _ => true := by
    funext r
    rfl
  rw [count, query_eq (by simp [Stmt.idents])]
  cases p.backend.fails (.count []) tbl <;>
    simp [Stmt.idents, countOf, Engine.meaning, ha]

lemma select_page {col : String} (ho : p.backend.plain col) (n o : ℕ) (tbl : Table V) :
    rowsOf (query p.backend (.select [] [col] (some n) (some o)) tbl) =
      (tbl,if p.backend.known col && !p.backend.fails (.select [] [col] (some n) (some o)) tbl then
        .ok (page (some n) (some o) (tbl.mergeSort (p.backend.le [col]))) else .error .query) := by
  have ha : p.backend.satisfies ([] : List (Cond A)) = fun _ => true := by
    funext r
    rfl
  rw [query_eq (by simpa [Stmt.idents] using ho)]
  by_cases h : (p.backend.known col && !p.backend.fails (.select [] [col] (some n) (some o)) tbl) =
      true
  · simp only [Stmt.idents, map_nil, nil_append, all_cons, all_nil,
      Bool.and_true, h, if_true, rowsOf, Engine.meaning, ha, filter_true]
  · simp only [Stmt.idents, map_nil, nil_append, all_cons, all_nil,
      Bool.and_true, h, rowsOf]
    rfl

lemma listParams_page (pg size : Option ℤ) (sort : Option String) :
    1 ≤ (listParams pg size sort).page ∧ 1 ≤ (listParams pg size sort).size := by
  have ho : ∀ (v : Option ℤ) (d : ℤ), 1 ≤ d → 1 ≤ positiveOr v d := by
    intro v d hd
    cases v with
    | none => exact hd
    | some n =>
      simp only [positiveOr]
      split_ifs <;> omega
  exact ⟨ho pg 1 le_rfl,ho size 10 (by decide)⟩

lemma shown_whole (hk : KeyLookup p.backend p.info) (he : q.keyset = false)
    (hi : q.filters = []) (ha : 1 ≤ q.page) (hz : 1 ≤ q.size) :
    shown (serve p (tenantInfo none) (.list q) tbl).2 = pageRows p q tbl := by
  have hs : (tenantInfo none).scoped = false := rfl
  have hy := plain_of_known hk.known
  have hq : p.driver ≠ .postgres → serveList p (tenantInfo none) q tbl =
      sqlList p (tenantInfo none) q tbl := by
    intro hd
    cases hdr : p.driver with
    | postgres => exact absurd hdr hd
    | mysql | turso => simp [serveList, hdr]
  by_cases hd : p.driver = .postgres
  · simp only [serve, serveList, hd, tableList, hi, iterate_nil, resolvePatchColumns,
      foldl_nil, he, Bool.false_eq_true, if_false, ne_eq, not_true_eq_false, hs, or_self,
      queryPaginated, if_neg (show ¬ q.page < 1 by omega), if_neg (show ¬ q.size < 1 by omega),
      pageRows, pageColumn]
    cases ho : offsetOrder p.info q.sort with
    | error e => simp [finish, shown, Except.toOption]
    | ok col =>
      have hco : p.backend.plain col := order_plain ho hk.names hy
      simp only [count_all, Except.toOption]
      cases hf : p.backend.fails (.count []) tbl with
      | true => simp [finish, shown]
      | false =>
        simp only [Bool.false_eq_true, if_false, select_page hco, Bool.false_or]
        cases p.backend.known col <;>
          cases p.backend.fails (.select [] [col] (some q.size.toNat)
            (some ((q.page-1)*q.size).toNat)) tbl <;> simp [finish, shown]
  · have ht : max ((q.page-1)*q.size) 0 = (q.page-1)*q.size :=
      max_eq_left (Int.mul_nonneg (by omega) (by omega))
    have hl : pageColumn p q.sort = some p.info.primaryKey := by
      cases hdr : p.driver with
      | postgres => exact absurd hdr hd
      | mysql | turso => simp [pageColumn, hdr]
    simp only [serve, hq hd, sqlList, hi, he, Bool.false_eq_true, if_false, ne_eq,
      not_true_eq_false, hs, or_self, if_neg (show ¬ q.size ≤ 0 by omega), ht, listPaginated,
      pageRows, hl, count_all]
    cases hf : p.backend.fails (.count []) tbl with
    | true => simp [shown]
    | false =>
      simp only [Bool.false_eq_true, if_false, select_page hy, Bool.false_or]
      cases p.backend.known p.info.primaryKey <;>
        cases p.backend.fails (.select [] [p.info.primaryKey] (some q.size.toNat)
          (some ((q.page-1)*q.size).toNat)) tbl <;> simp [finish, shown]

lemma shown_list (hk : KeyLookup p.backend p.info) (pg size : Option ℤ) (sort : Option String) :
    shown (serve p (tenantInfo none) (.list (listParams pg size sort)) tbl).2 =
      pageRows p (listParams pg size sort) tbl := by
  obtain ⟨ha,hi⟩ := listParams_page pg size sort
  exact shown_whole hk rfl rfl ha hi

lemma mem_pageRows (h : r ∈ pageRows p q tbl) : r ∈ tbl := by
  rw [pageRows] at h
  split at h
  · simp at h
  · dsimp only at h
    split_ifs at h
    · simp at h
    · exact mem_mergeSort.mp (mem_page h)

lemma mem_of_lookup (h : lookup p.backend p.info p.driver id tbl = .ok r) : r ∈ tbl := by
  rw [lookup] at h
  split_ifs at h
  exact (mem_filter.mp (oneRow_mem h)).1

end

section

variable {D : Deployment V A} {c : Ctx} {f : FieldInfo} {tbl : Table V} {r : Row V}
  {op : Operation}

lemma httpMay_iff {does : Scope → Operation → Prop}
    (how : ∀ s, httpScope D.entry D.crudMws c = some s → ∀ o, does s o → ownedBy D.provider s r)
    (hi : ∀ s, httpScope D.entry D.crudMws c = some s → ownedBy D.provider s r → does s op) :
    HttpMay D c does ↔ Mine D c op does r := by
  constructor
  · rintro ⟨s,hs,o,he,ho⟩
    exact ⟨s,hs,how s hs o ho,.inr ⟨o,he,ho⟩⟩
  · rintro ⟨s,hs,hon,he | ⟨o,he,ho⟩⟩
    · exact ⟨s,hs,op,he,hi s hs hon⟩
    · exact ⟨s,hs,o,he,ho⟩

section

variable (hm : TenantModel D.provider D.entry.tenantField f) (hi : D.entry.tenantField ≠ "")
include hm hi

lemma scope_model {s : Scope} (hs : httpScope D.entry D.crudMws c = some s) :
    TenantColumn D.provider s f ∧ Neutral D.provider s ∧ s = ⟨D.entry.tenantField,s.id⟩ ∧
      s.id ≠ "" := by
  obtain ⟨hf,hid⟩ := httpScope_some hi hs
  obtain ⟨field,tenant⟩ := s
  obtain rfl : field = D.entry.tenantField := hf
  exact ⟨hm.column tenant hid,hm.neutral tenant hid,rfl,hid⟩

lemma couldRead_iff [DecidableEq V] (he : Keyed D.provider tbl) (hr : r ∈ tbl) :
    CouldRead D c tbl r ↔ MineToRead D c tbl r := by
  refine httpMay_iff (fun s hs o ho => ?_) fun s hs how => ?_
  · obtain ⟨ht,hn,-,-⟩ := scope_model hm hi hs
    exact reads_owned hm.lookup ht hn ho
  · obtain ⟨ht,hn,-,-⟩ := scope_model hm hi hs
    exact reads_get hm.lookup hn ht.active he hr how

lemma couldChange_iff (he : ∀ s, s.scoped → Neutral D.provider s → ownedBy D.provider s r →
      Changes D.provider s tbl r op) : CouldChange D c tbl r ↔ MineToChange D c op tbl r := by
  refine httpMay_iff (fun s hs o ho => ?_) fun s hs how => ?_
  · obtain ⟨ht,hn,-,-⟩ := scope_model hm hi hs
    exact changes_owned hm.lookup hn ht.active ho
  · obtain ⟨ht,hn,-,-⟩ := scope_model hm hi hs
    exact he s ht.active hn how

lemma couldAdd_iff {body : Option (Entity A)} {en : Entity A}
    (hen : prepared D.provider body = some en) (hac : acceptsInsert D.provider en tbl) :
    CouldAdd D c tbl (inserted D.provider.backend D.provider.info D.provider.driver en tbl) ↔
      ∃ s, httpScope D.entry D.crudMws c = some s ∧ Served D.entry .create ∧
        inserted D.provider.backend D.provider.info D.provider.driver en tbl (column s) =
          own D.provider s := by
  have ha : ∀ s, httpScope D.entry D.crudMws c = some s →
      (Adds D.provider s tbl
          (inserted D.provider.backend D.provider.info D.provider.driver en tbl) .create ↔
        inserted D.provider.backend D.provider.info D.provider.driver en tbl (column s) =
          own D.provider s) := by
    intro s hs
    obtain ⟨ht,hn,hq,hid⟩ := scope_model hm hi hs
    refine adds_create_iff hm.lookup ht hen fun hl => ?_
    rw [hq] at hl
    exact hm.insert s.id hid en tbl hl hac
  constructor
  · rintro ⟨s,hs,o,he,ho⟩
    cases o with
    | create => exact ⟨s,hs,he,(ha s hs).mp ho⟩
    | _ => exact ho.elim
  · rintro ⟨s,hs,he,hl⟩
    exact ⟨s,hs,.create,he,(ha s hs).mpr hl⟩

end

lemma idle_update {rows : List (Row V)} (ho : rows = []) (r r' : Row V)
    (ha : (r,r') ∈ tbl.zip tbl) :
    (r' ≠ r → CouldChange D c tbl r) ∧ (r' ∈ rows → CouldRead D c tbl r) := by
  subst ho
  exact ⟨fun he => absurd (mem_zip_self ha).2 he,fun h => absurd h not_mem_nil⟩

variable [DecidableEq V]

/-- An operation gives no more than HTTP exactly if the rows that its
arguments select are the caller's. -/
theorem graphql_within_http_iff (hm : TenantModel D.provider D.entry.tenantField f)
    (hfield : D.entry.tenantField ≠ "") (hkey : Keyed D.provider tbl) (c : Ctx) (op : Op A) :
    NoMore D c op tbl ↔ Confined D c op tbl := by
  have hu : (tenantInfo none).scoped = false := rfl
  refine imp_congr_right fun _ => ?_
  by_cases hi : fits D.provider.info op.input
  · have he : resolve D.provider D.decode op tbl =
        serve D.provider (tenantInfo none) (request D.decode op) tbl := if_pos hi
    simp only [hi, true_imp_iff]
    cases op with
    | get id =>
      simp only [he, request, shown_get hm.lookup]
      exact forall_congr' fun r => imp_congr_right fun hl =>
        couldRead_iff hm hfield hkey (mem_of_lookup hl)
    | list pg size sort =>
      simp only [he, request, shown_list hm.lookup]
      exact forall_congr' fun r => imp_congr_right fun hr =>
        couldRead_iff hm hfield hkey (mem_pageRows hr)
    | update id input =>
      have ha := hm.inputs id input hi
      simp only [he, request, serve, serveUpdate_plain hm.lookup hu ha]
      cases hpl : planned D.provider id (some input) with
      | none => exact iff_of_true (idle_update (shown_update_unplanned hpl)) (by simp)
      | some sets =>
        simp only [Option.some.injEq, forall_eq']
        cases hac : acceptsUpdate D.provider id sets tbl with
        | false =>
          exact iff_of_true (idle_update (shown_update_refused hm.lookup ha hpl hac)) (by simp)
        | true =>
          simp only [if_true, true_imp_iff, shown_update hm.lookup ha hpl hac]
          refine forall_congr' fun r => forall_congr' fun r' => imp_congr_right fun hpa => ?_
          refine and_congr (imp_congr_right fun hne => ?_) (imp_congr_right fun _ => ?_)
          · exact couldChange_iff hm hfield fun s hs hn how =>
              changes_update hm.lookup hn hs ha hpl hac hpa hne how
          · exact couldRead_iff hm hfield hkey (mem_zip_map.mp hpa).1
    | delete id =>
      simp only [he, request, serve]
      cases ho : D.provider.hooks.beforeDelete id with
      | error e => simp +contextual [serveDelete_rejected ho]
      | ok u =>
        rw [serveDelete_plain hm.lookup hu ho]
        cases hac : acceptsDelete D.provider id tbl with
        | false => simp +contextual
        | true =>
          simp only [if_true, true_imp_iff, mem_filter, Bool.not_eq_true', not_and,
            Bool.not_eq_false]
          refine forall_congr' fun r => imp_congr_right fun hr => ?_
          simp only [hr, true_imp_iff]
          exact imp_congr_right fun hd => couldChange_iff hm hfield fun s hs hn how =>
            changes_delete hm.lookup hn hs ho hac hr hd how
    | create input =>
      simp only [he, request, serve, serveCreate_plain hm.lookup hu]
      cases hen : prepared D.provider (D.decode input) with
      | none => simp
      | some en =>
        simp only [Option.some.injEq, forall_eq']
        cases hac : acceptsInsert D.provider en tbl with
        | false => simp
        | true =>
          simp only [if_true, true_imp_iff, append_cancel_left_eq, cons.injEq, and_true,
            forall_eq']
          exact couldAdd_iff hm hfield hen hac
  · have he : resolve D.provider D.decode op tbl = (tbl,.invalid "input" "schema") :=
      if_neg hi
    simp only [hi, he]
    cases op with
    | update id input => exact iff_of_true (idle_update rfl) (by simp)
    | _ => simp +contextual [shown]

end

def openOrders : Provider String String where
  backend := textBackend ["id","org_id","note"]
  info := ⟨[⟨"id","Id",true,false,false,false,true,""⟩,
    ⟨"org_id","OrgId",false,false,false,false,true,""⟩,
    ⟨"note","Note",false,false,false,false,true,""⟩],"id"⟩
  driver := .postgres
  hooks := {}

def openDeployment : Deployment String String where
  provider := openOrders
  entry := { tenantField := "org_id" }
  crudMws := []
  graphqlMws := []
  decode := fun input => some fun name => (input.lookup name).getD ""

def orderOfAcme : Row String := fun col =>
  if col = "id" then "1" else if col = "org_id" then "acme" else "paid"

def memberOf (tenant : String) : Ctx where
  req := ⟨fun _ => "",[],fun _ => ""⟩
  claims := some [("org_id",.str tenant)]

lemma openOrders_model : TenantModel openOrders "org_id"
    ⟨"org_id","OrgId",false,false,false,false,true,""⟩ where
  lookup := ⟨by decide,by decide,fun _ _ _ => rfl⟩
  column tenant ht :=
    ⟨by simp [Scope.scoped, ht],by rfl,by decide,by decide,
      by simp only [column]; decide,by decide,by decide,by decide⟩
  neutral tenant ht :=
    ⟨show validColumn openOrders.info "org_id" by decide,
      show openOrders.backend.known "org_id" by decide,
      fun _ _ => rfl,fun _ _ _ _ _ => rfl,fun _ _ => rfl⟩
  insert _ _ _ _ _ _ := by
    have ho : openOrders.backend.known "id" ∧ openOrders.backend.known "org_id" ∧
      openOrders.backend.known "note" := by decide
    simpa [acceptsInsert, insertValues, insertColumns, openOrders, textBackend] using ho
  inputs _ _ _ := fun h => absurd rfl h

lemma orderOfAcme_keyed : Keyed openOrders [orderOfAcme] := by
  intro r hr
  rw [mem_singleton.mp hr]
  exact ⟨"1",rfl,rfl⟩

theorem acme_reads_own_order_over_graphql :
    TenantModel openOrders "org_id" ⟨"org_id","OrgId",false,false,false,false,true,""⟩ ∧
    Keyed openOrders [orderOfAcme] ∧
    NoMore openDeployment (memberOf "acme") (.get "1") [orderOfAcme] := by
  refine ⟨openOrders_model,orderOfAcme_keyed,(@graphql_within_http_iff _ _ openDeployment _ _ _
    openOrders_model (by decide) orderOfAcme_keyed _ _).mpr fun _ _ r hr => ?_⟩
  have ho := mem_of_lookup hr
  rw [mem_singleton.mp ho]
  exact ⟨⟨"org_id","acme"⟩,rfl,by decide,.inl ⟨by decide,by decide⟩⟩

/-- Another tenant is shown the order and can delete it. -/
theorem globex_reads_and_deletes_order_over_graphql :
    TenantModel openOrders "org_id" ⟨"org_id","OrgId",false,false,false,false,true,""⟩ ∧
    Keyed openOrders [orderOfAcme] ∧
    httpScope openDeployment.entry openDeployment.crudMws (memberOf "globex") =
      some ⟨"org_id","globex"⟩ ∧
    orderOfAcme ∈ shown (resolve openOrders openDeployment.decode (.get "1") [orderOfAcme]).2 ∧
    gqlObject openOrders.info orderOfAcme =
      [("Id",some "1"),("OrgId",some "acme"),("Note",some "paid")] ∧
    ¬ NoMore openDeployment (memberOf "globex") (.get "1") [orderOfAcme] ∧
    (resolve openOrders openDeployment.decode (.delete "1") [orderOfAcme]).1 = [] ∧
    ¬ NoMore openDeployment (memberOf "globex") (.delete "1") [orderOfAcme] := by
  have ha : Calls openDeployment (memberOf "globex") := ⟨_,rfl⟩
  have hsh : orderOfAcme ∈
      shown (resolve openOrders openDeployment.decode (.get "1") [orderOfAcme]).2 :=
    (shown_get openOrders_model.lookup "1").mpr rfl
  have he : ∀ s, httpScope openDeployment.entry openDeployment.crudMws (memberOf "globex") =
      some s → TenantColumn openOrders s ⟨"org_id","OrgId",false,false,false,false,true,""⟩ ∧
        Neutral openOrders s ∧ ownedBy openOrders s orderOfAcme ≠ true := by
    intro s hs
    obtain ⟨ht,hn,-,-⟩ := @scope_model _ _ openDeployment _ _ openOrders_model (by decide) s hs
    cases hs
    exact ⟨ht,hn,by decide⟩
  refine ⟨openOrders_model,orderOfAcme_keyed,rfl,hsh,by decide,fun h => ?_,rfl,fun h => ?_⟩
  · obtain ⟨s,hs,o,-,hdo⟩ := h ha orderOfAcme hsh
    obtain ⟨ht,hn,ho⟩ := he s hs
    exact ho (reads_owned openOrders_model.lookup ht hn hdo)
  · have hg : orderOfAcme ∉
        (resolve openOrders openDeployment.decode (.delete "1") [orderOfAcme]).1 :=
      not_mem_nil
    obtain ⟨s,hs,o,-,hdo⟩ := h ha orderOfAcme (by simp) hg
    obtain ⟨ht,hn,ho⟩ := he s hs
    exact ho (changes_owned openOrders_model.lookup hn ht.active hdo)

end SdkApi.GraphqlConfinement
