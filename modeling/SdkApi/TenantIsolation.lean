import SdkApi.TenantOperations
import SdkApi.GuardedRuns

/-!
# Tenant isolation of the CRUD providers

Every scoped statement carries the tenant condition, so that it reads and
changes rows of the tenant only. What it writes is another matter: an update
assigns whatever its patch names, the tenant column included. Isolation holds
along the runs whose patches leave that column alone, as long as the names
that MySQL and Turso splice into their statements are names.
-/

namespace SdkApi.TenantIsolation
open GoStrings SqlEngine Tables TableQueries CrudProviders TenantScope TenantOperations GuardedRuns
open List

variable {V A : Type} [DecidableEq V] {p : Provider V A} {s : Scope}

def Respects (p : Provider V A) (s : Scope) (f : FieldInfo) (tbl : Table V)
    (out : Table V × Reply V A) : Prop :=
  foreign p s out.1 = foreign p s tbl ∧ Within p s f out.2

def ListsOwned (p : Provider V A) (s : Scope) (tbl : Table V) (out : Table V × Reply V A) : Prop :=
  foreign p s out.1 = foreign p s tbl ∧ Shows (fun r => r ∈ tbl ∧ ownedBy p s r = true) out.2

section

variable {f : FieldInfo} (ht : TenantColumn p s f) (tbl : Table V) (q : ListParams)
include ht

lemma keysetList_owned {where_ : GoMap A}
    (hk : p.driver ≠ .postgres → p.backend.plain q.sort ∧ ∀ e ∈ where_, p.backend.plain e.1) :
    ListsOwned p s tbl (keysetList p (addTenant p s where_) q tbl) := by
  refine isolated_finish (isolated_queryKeyset ht tbl _ _ _ _ (tenant_mem_addTenant ht) ?_)
    (fun _ => trivial) (fun _ h => h)
  intro hd
  refine ⟨(hk hd).1,fun e he => ?_⟩
  rcases mem_addTenant he with rfl | he
  · exact plain_field ht
  · exact (hk hd).2 e he

lemma sqlList_owned (hd : p.driver ≠ .postgres)
    (hq : HarmlessRequest p s (.list q)) : ListsOwned p s tbl (sqlList p s q tbl) := by
  rw [sqlList]
  by_cases hk : q.keyset
  · rw [if_pos hk]
    refine keysetList_owned ht tbl q fun _ => ⟨(hq hk hd).1,fun e he => ?_⟩
    obtain ⟨e0,he0,rfl⟩ := mem_map.mp he
    exact (hq hk hd).2 e0 he0
  · rw [if_neg hk]
    dsimp only
    rw [if_pos (Or.inr ht.active)]
    have ha := countWhere_table p.backend p.info (offsetFilteredWhere p s q.filters) tbl
      fun _ => plain_of_column ht.names
    generalize countWhere p.backend p.info _ tbl = st at ha ⊢
    obtain ⟨t,r⟩ := st
    obtain rfl : t = tbl := ha
    cases r with
    | error e => exact ⟨rfl,trivial⟩
    | ok total =>
      exact isolated_finish (isolated_queryWhere ht t _ (tenant_mem_addTenant ht) _ _ _)
        (fun _ => trivial) (fun _ h => h)

end

lemma listsOwned_count {tbl t : Table V} (hfo : foreign p s t = foreign p s tbl)
    {rows : List (Row V)} (ho : ∀ r ∈ rows, r ∈ tbl ∧ ownedBy p s r) {st : Step V ℕ}
    (hc : Isolated p s (fun _ => True) t st) :
    ListsOwned p s tbl (finish (fun _ => .failed) (fun total => .list rows "" total) st) := by
  obtain ⟨u,e | total⟩ := st
  · exact ⟨hc.1.trans hfo,trivial⟩
  · exact ⟨hc.1.trans hfo,ho⟩

section

variable {f : FieldInfo} (ht : TenantColumn p s f)
include ht

lemma tableList_owned (tbl : Table V) (q : ListParams) (hd : p.driver = .postgres) :
    ListsOwned p s tbl (tableList p s q tbl) := by
  rw [tableList]
  by_cases hk : q.keyset
  · rw [if_pos hk]
    exact keysetList_owned ht tbl q fun hn => absurd hd hn
  · rw [if_neg hk, if_pos (Or.inr ht.active)]
    have hw := isolated_queryWhere ht tbl (addTenant p s (makeFiltersMap p
        (resolvePatchColumns p.info (p.backend.iterate q.filters))))
      (tenant_mem_addTenant ht) q.sort q.size ((q.page-1)*q.size)
    generalize queryWhere p.backend p.info _ q.sort q.size _ tbl = st at hw ⊢
    obtain ⟨t,r⟩ := st
    cases r with
    | error e => exact ⟨hw.1,trivial⟩
    | ok rows =>
      have ho := isolated_count ht t (p.backend.iterate (makeFiltersMap p
          (resolvePatchColumns p.info (p.backend.iterate q.filters)))++
          (if s.scoped then [(s.field,p.backend.text s.id)] else []))
      exact listsOwned_count hw.1 (hw.2 rows rfl) ho

lemma serveList_owned (tbl : Table V) (q : ListParams) (hq : HarmlessRequest p s (.list q)) :
    ListsOwned p s tbl (serveList p s q tbl) := by
  cases hd : p.driver with
  | postgres => simpa only [serveList, hd] using tableList_owned ht tbl q hd
  | mysql | turso => simpa only [serveList, hd] using sqlList_owned ht tbl q (by simp [hd]) hq

lemma serve_respects {tbl : Table V} (hx : Exact p s tbl) (req : Request A)
    (hq : HarmlessRequest p s req) : Respects p s f tbl (serve p s req tbl) := by
  have he : ∀ id e, Within p s f (errReply id e) := by
    intro id e
    cases e <;> trivial
  cases req with
  | list q =>
    obtain ⟨hfo,ho⟩ := serveList_owned ht tbl q hq
    refine ⟨hfo,?_⟩
    simp only [serve]
    generalize (serveList p s q tbl).2 = reply at ho ⊢
    cases reply with
    | list rows cursor total => exact fun r hr => hx r (ho r hr).1 (ho r hr).2
    | row n r => exact hx r ho.1 ho.2
    | entity n en => exact ho.elim
    | _ => trivial
  | get id =>
    simp only [serve, serveGet, ht.active, if_true]
    exact isolated_finish (isolated_getScoped ht tbl id) (he id) fun r h => hx r h.1 h.2
  | create body =>
    cases body with
    | none => exact ⟨rfl,trivial⟩
    | some en =>
      simp only [serve, serveCreate]
      cases p.hooks.beforeCreate en with
      | error e => exact ⟨rfl,trivial⟩
      | ok en =>
        simp only [ht.active, if_true, createScoped, ht.field]
        refine isolated_finish (isolated_create ht _ tbl (by simp)) (fun _ => trivial) ?_
        intro a ha
        cases a <;> exact ha
  | update id body =>
    cases body with
    | none => exact ⟨rfl,trivial⟩
    | some body =>
      simp only [serve, serveUpdate]
      cases hb : p.hooks.beforeUpdate id body with
      | error e => exact ⟨rfl,trivial⟩
      | ok patch =>
        simp only [ht.active, if_true]
        exact isolated_finish (isolated_updateScoped ht hx id _
          (harmless_patchSets ht patch (hq patch hb))) (he id) (fun _ h => h)
  | delete id =>
    simp only [serve, serveDelete]
    cases p.hooks.beforeDelete id with
    | error e => exact ⟨rfl,trivial⟩
    | ok _ =>
      simp only [ht.active, if_true]
      exact isolated_finish (isolated_deleteScoped ht hx id) (he id) (fun _ _ => trivial)

end

def Serves (p : Provider V A) (s : Scope) (tbl : Table V) (e : Request A × Reply V A)
    (tbl' : Table V) : Prop := serve p s e.1 tbl = (tbl',e.2)

def Admissible (p : Provider V A) (s : Scope) (tbl : Table V) (e : Request A × Reply V A) : Prop :=
  Exact p s tbl ∧ HarmlessRequest p s e.1

/-- Along every run of harmless requests the rows of other tenants stay what
they are, and every reply shows rows of the tenant only. -/
theorem run_keeps_tenants_apart {f : FieldInfo} (ht : TenantColumn p s f) {tbl tbl' : Table V}
    {es : List (Request A × Reply V A)} (h : Run (Serves p s) (Admissible p s) tbl es tbl') :
    foreign p s tbl' = foreign p s tbl ∧ ∀ e ∈ es, Within p s f e.2 := by
  induction h with
  | nil tbl => exact ⟨rfl,by simp⟩
  | @cons t t' _ e es hok hstep _ ih =>
    have hr := serve_respects ht hok.1 e.1 hok.2
    rw [show serve p s e.1 t = (t',e.2) from hstep] at hr
    refine ⟨ih.1.trans hr.1,fun x hx => ?_⟩
    rcases mem_cons.mp hx with rfl | hx
    · exact hr.2
    · exact ih.2 x hx

def orders : Provider String String where
  backend := textBackend ["id","org_id","note"]
  info := ⟨[⟨"id","ID",true,false,false,false,true,"id"⟩,
    ⟨"org_id","OrgID",false,false,false,false,true,"org_id"⟩,
    ⟨"note","Note",false,false,false,false,true,"note"⟩],"id"⟩
  driver := .postgres
  hooks := {}

def acme : Scope := ⟨"org_id","acme"⟩

def acmeOrder : Row String := fun col =>
  if col = "id" then "1" else if col = "org_id" then "acme" else ""

lemma orders_tenant : TenantColumn orders acme
    ⟨"org_id","OrgID",false,false,false,false,true,"org_id"⟩ where
  active := by decide
  field := by decide
  stored := by decide
  string := by decide
  unique := by decide
  goNames := by decide
  names := by decide
  primaryKey := by decide

theorem tenants_apart_after_note :
    TenantColumn orders acme ⟨"org_id","OrgID",false,false,false,false,true,"org_id"⟩ ∧
    foreign orders acme (serve orders acme (.update "1" (some [("note","paid")])) [acmeOrder]).1 =
      foreign orders acme [acmeOrder] ∧
    ∀ e ∈ [((.update "1" (some [("note","paid")]) : Request String),
        (serve orders acme (.update "1" (some [("note","paid")])) [acmeOrder]).2)],
      Within orders acme ⟨"org_id","OrgID",false,false,false,false,true,"org_id"⟩ e.2 := by
  refine ⟨orders_tenant,run_keeps_tenants_apart orders_tenant (.cons ⟨?_,?_⟩ rfl (.nil _))⟩
  · intro r hr _
    rw [mem_singleton.mp hr]
    rfl
  · rintro patch hp e he
    cases hp
    rw [mem_singleton.mp he]
    exact fun _ ho => absurd ho (by decide)

/-- A patch that names the tenant column hands the row over. -/
theorem patch_hands_row_over :
    TenantColumn orders acme ⟨"org_id","OrgID",false,false,false,false,true,"org_id"⟩ ∧
    foreign orders acme (serve orders acme (.update "1" (some [("org_id","globex")])) [acmeOrder]).1 ≠
      foreign orders acme [acmeOrder] := by
  refine ⟨orders_tenant,fun h => ?_⟩
  have ha := congrArg Multiset.card h
  exact absurd ha (by decide)

end SdkApi.TenantIsolation
