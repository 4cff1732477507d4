import SdkApi.CacheTransparency
import SdkApi.ScopedEquivalence
import SdkApi.TenantIsolation

/-!
# Tenants behind the cache

The cached providers never ask for the tenant of a request: they read and
write by key alone. They answer like the uncached provider of the same entry
exactly where the tenant condition makes no difference and the caches are
transparent.
-/

namespace SdkApi.CacheTenancy
open GoStrings SqlEngine Tables CrudProviders KeyedTable CachedCrud CacheTransparency TenantScope
open TenantOperations TenantIsolation ScopedEquivalence GuardedRuns

variable {V A J : Type} (p : CachedProvider V A J)

/-- The provider of the same entry without a cache. -/
def uncached : Provider V A := ⟨p.backend,p.info,p.driver,{}⟩

def replyStatus : Reply V A → ℕ
  | .list _ _ _ => 200
  | .row n _ => n
  | .entity n _ => n
  | .noContent => 204
  | .notFound _ => 404
  | .invalid _ _ => 400
  | .failed => 500

def replyJSON : Reply V A → Option J
  | .row _ r => some (p.codec.encode r)
  | .entity _ en => some (p.codec.encodeEntity en)
  | _ => none

/-- The same table, the same status and the same row. -/
structure Agrees (out : State V J × Answer J) (ref : Table V × Reply V A) : Prop where
  table : out.1.table = ref.1
  status : out.2.status = replyStatus ref.2
  row : out.2.row = replyJSON p ref.2

structure TenantEntry (field : String) (f : FieldInfo) : Prop where
  lookup : KeyLookup p.backend p.info
  driver : p.driver ≠ .turso
  column : ∀ tenant ≠ "", TenantColumn (uncached p) ⟨field,tenant⟩ f
  neutral : ∀ tenant ≠ "", Neutral (uncached p) ⟨field,tenant⟩

inductive TenantEvent (A : Type) where
  | request (tenant : String) (req : Request A)
  | evict (key : String)

def TenantEvent.event : TenantEvent A → Event A
  | .request _ req => .request req
  | .evict key => .evict key

def OwnRequest (s : Scope) (tbl : Table V) : Request A → Prop
  | .get id => Owned (uncached p) s id tbl
  | .update id (some patch) => Owned (uncached p) s id tbl ∧ Agreeable (uncached p) s patch
  | .delete id => Owned (uncached p) s id tbl
  | _ => True

def TenantStepOk (field : String) (st : State V J) : TenantEvent A → Prop
  | .request tenant req => tenant ≠ "" ∧ StepOk p st (.request req) ∧
      Exact (uncached p) ⟨field,tenant⟩ st.table ∧ OwnRequest p ⟨field,tenant⟩ st.table req
  | .evict _ => True

variable {p} {field : String} {st : State V J}

lemma stepOk_event {e : TenantEvent A} (h : TenantStepOk p field st e) : StepOk p st e.event := by
  cases e with
  | request tenant req => exact h.2.1
  | evict key => trivial

lemma get_agrees {f : FieldInfo} (he : TenantEntry p field f) {tenant : String} (ht : tenant ≠ "")
    (htr : Transparent p st) (id : String) (ho : Owned (uncached p) ⟨field,tenant⟩ id st.table) :
    Agrees p (cachedGet p id st) (serve (uncached p) ⟨field,tenant⟩ (.get id) st.table) := by
  obtain ⟨hans,-,hb⟩ := cachedGet_spec he.lookup htr id
  have hi := (he.column tenant ht).active
  have hg : getScoped (uncached p).backend (uncached p).info (uncached p).driver id field tenant
      st.table = (st.table,lookup p.backend p.info p.driver id st.table) :=
    (getScoped_eq he.lookup (he.neutral tenant ht) ho).trans (get_eq he.lookup id st.table)
  have ha := plainGet_eq he.lookup id st.table
  rw [answer] at ha
  simp only [serve, serveGet, hi, if_true, hg]
  cases hl : lookup p.backend p.info p.driver id st.table with
  | ok r =>
    rw [hl] at ha
    exact ⟨hb,by rw [hans, ha]; rfl,by rw [hans, ha]; rfl⟩
  | error e =>
    rw [hl] at ha
    cases e <;> exact ⟨hb,by rw [hans, ha]; rfl,by rw [hans, ha]; rfl⟩

lemma failure_agrees (id : String) (st : State V J) (e : DbError) :
    Agrees p (st,failure e) (st.table,(errReply id e : Reply V A)) := by
  cases e <;> exact ⟨rfl,rfl,rfl⟩

section

variable {field : String} {f : FieldInfo} (he : TenantEntry p field f) {tenant : String}
  (ht : tenant ≠ "")
include he ht

lemma update_agrees {st : State V J} (hx : Exact (uncached p) ⟨field,tenant⟩ st.table) {id : String}
    {body : Option (GoMap A)} (ho : OwnRequest p ⟨field,tenant⟩ st.table (.update id body)) :
    Agrees p (cachedUpdate p id body st)
      (serve (uncached p) ⟨field,tenant⟩ (.update id body) st.table) := by
  have ha := (he.column tenant ht).active
  cases body with
  | none => exact ⟨rfl,rfl,rfl⟩
  | some patch =>
    obtain ⟨hn,hp⟩ := ho
    have hq := updateScoped_eq he.lookup (he.neutral tenant ht) he.driver hn hx hp
    simp only [serve, serveUpdate, uncached] at hq ⊢
    simp only [ha, if_true]
    rcases hq with ⟨e,e',h1,h2,hne,hn'⟩ | hq
    · simp only [cachedUpdate, h1]
      rw [h2]
      cases e <;> cases e' <;> first | exact absurd rfl hne | exact absurd rfl hn' |
        exact ⟨rfl,rfl,rfl⟩
    · rw [hq, cachedUpdate]
      rcases update p.backend p.info p.driver id patch st.table with ⟨t,e | r⟩
      · exact failure_agrees id { st with table := t } e
      · exact ⟨rfl,rfl,rfl⟩

lemma delete_agrees {st : State V J} {id : String}
    (ho : Owned (uncached p) ⟨field,tenant⟩ id st.table) :
    Agrees p (cachedDelete p id st) (serve (uncached p) ⟨field,tenant⟩ (.delete id) st.table) := by
  have ha := (he.column tenant ht).active
  have hq : deleteScoped p.backend p.info id field tenant st.table =
      delete p.backend p.info id st.table := deleteScoped_eq he.lookup (he.neutral tenant ht) ho
  simp only [serve, serveDelete, uncached, ha, if_true, hq, cachedDelete]
  rcases delete p.backend p.info id st.table with ⟨t,e | r⟩
  · exact failure_agrees id { st with table := t } e
  · exact ⟨rfl,rfl,rfl⟩

end

lemma harmless_of_agreeable {s : Scope} {id : String} {patch : GoMap A}
    (h : Agreeable (uncached p) s patch) :
    HarmlessRequest (uncached p) s (.update id (some patch)) := by
  intro patch' hp' e he
  cases hp'
  cases hd : p.driver with
  | postgres =>
    have hi := (h.settled hd).1 e he
    simp only [HarmlessEntry, patchColumn, show (uncached p).driver = .postgres from hd]
    intro _ ho
    exact h.tenant e he (by rw [hi] at ho; exact ho)
  | mysql =>
    simp only [HarmlessEntry, patchColumn, show (uncached p).driver = .mysql from hd]
    exact ⟨h.plain (by simp [show (uncached p).driver = .mysql from hd]) e he,h.tenant e he⟩
  | turso =>
    simp only [HarmlessEntry, patchColumn, show (uncached p).driver = .turso from hd]
    exact ⟨h.plain (by simp [show (uncached p).driver = .turso from hd]) e he,h.tenant e he⟩

def Single : Request A → Prop
  | .get _ => True
  | .update _ _ => True
  | .delete _ => True
  | _ => False

/-- In every state that a run of steps meeting the condition reaches, an
operation on one record that meets it is answered as without the cache, and
returns and changes rows of its tenant only. -/
theorem run_keeps_cached_tenants_apart [DecidableEq V] {field : String} {f : FieldInfo}
    (he : TenantEntry p field f) (hasL1 : Bool) (tbl : Table V) (hw : WarmOk p hasL1 tbl)
    {es : List (TenantEvent A)} {st : State V J}
    (h : Run (fun st e st' => act p st e.event = st') (TenantStepOk p field)
      (warmCache p hasL1 tbl) es st)
    (tenant : String) (req : Request A) (hreq : Single req)
    (hok : TenantStepOk p field st (.request tenant req)) :
    Agrees p (cachedServe p req st) (serve (uncached p) ⟨field,tenant⟩ req st.table) ∧
      Respects (uncached p) ⟨field,tenant⟩ f st.table
        (serve (uncached p) ⟨field,tenant⟩ req st.table) := by
  have hst : Transparent p st := by
    refine run_invariant (Transparent p) (fun s e t hs ho hstep => ?_) h (warm_transparent hw)
    exact hstep ▸ act_transparent he.lookup hs (stepOk_event ho)
  obtain ⟨ht,-,hx,hn⟩ := hok
  have hl := he.column tenant ht
  cases req with
  | list q | create body => exact hreq.elim
  | get id => exact ⟨get_agrees he ht hst id hn,serve_respects hl hx _ trivial⟩
  | delete id => exact ⟨delete_agrees he ht hn,serve_respects hl hx _ trivial⟩
  | update id body =>
    refine ⟨update_agrees he ht hx hn,serve_respects hl hx _ ?_⟩
    cases body with
    | none => trivial
    | some patch => exact harmless_of_agreeable hn.2

def cachedTenantOrders : CachedProvider String String (String × String × String) where
  backend := orders.backend
  info := orders.info
  driver := .postgres
  keyPrefix := "order:"
  codec := {
    encode := fun r => (r "id",r "org_id",r "note")
    encodeEntity := fun en => (en "ID",en "OrgID",en "Note")
    bytes := fun j => ("","",j.1)
    decode := fun j => some fun col =>
      if col = "id" then j.1 else if col = "org_id" then j.2.1 else j.2.2
    recode := fun _ => ⟨_,rfl,rfl⟩ }

def orgField : FieldInfo := ⟨"org_id","OrgID",false,false,false,false,true,"org_id"⟩

lemma cachedTenantOrders_entry : TenantEntry cachedTenantOrders "org_id" orgField where
  lookup := ⟨by decide,by decide,fun _ _ _ => rfl⟩
  driver := by decide
  column tenant ht :=
    ⟨by simp [Scope.scoped, ht],by rfl,by decide,by decide,
      by simp only [column]; decide,by decide,by decide,by decide⟩
  neutral tenant ht :=
    ⟨show validColumn orders.info "org_id" by decide,
      show orders.backend.known "org_id" by decide,
      fun _ _ => rfl,fun _ _ _ _ _ => rfl,fun _ _ => rfl⟩

lemma cachedTenantOrders_warm : WarmOk cachedTenantOrders true [acmeOrder] := by
  intro _ r hr _
  rw [List.mem_singleton.mp (mem_warmed cachedTenantOrders_entry.lookup hr)]
  decide

theorem acme_reads_own_order :
    TenantStepOk cachedTenantOrders "org_id" (warmCache cachedTenantOrders true [acmeOrder])
      (.request "acme" (.get "1")) ∧
    Agrees cachedTenantOrders
      (cachedServe cachedTenantOrders (.get "1") (warmCache cachedTenantOrders true [acmeOrder]))
      (serve (uncached cachedTenantOrders) ⟨"org_id","acme"⟩ (.get "1")
        (warmCache cachedTenantOrders true [acmeOrder]).table) ∧
    Respects (uncached cachedTenantOrders) ⟨"org_id","acme"⟩ orgField
      (warmCache cachedTenantOrders true [acmeOrder]).table
      (serve (uncached cachedTenantOrders) ⟨"org_id","acme"⟩ (.get "1")
        (warmCache cachedTenantOrders true [acmeOrder]).table) := by
  have hok : TenantStepOk cachedTenantOrders "org_id"
      (warmCache cachedTenantOrders true [acmeOrder]) (.request "acme" (.get "1")) := by
    refine ⟨by decide,trivial,?_,?_⟩
    all_goals
      rw [warmCache_table cachedTenantOrders_entry.lookup]
      intro r hr _
      rw [List.mem_singleton.mp hr]
      decide
  exact ⟨hok,run_keeps_cached_tenants_apart cachedTenantOrders_entry true [acmeOrder]
    cachedTenantOrders_warm (.nil _) "acme" (.get "1") trivial hok⟩

/-- Another tenant is shown the order through the cache, and not without it. -/
theorem globex_reads_order_of_acme :
    TenantEntry cachedTenantOrders "org_id" orgField ∧
    WarmOk cachedTenantOrders true [acmeOrder] ∧
    acmeOrder (column ⟨"org_id","globex"⟩) ≠ own (uncached cachedTenantOrders) ⟨"org_id","globex"⟩ ∧
    (cachedServe cachedTenantOrders (.get "1")
      (warmCache cachedTenantOrders true [acmeOrder])).2 =
        .json 200 (cachedTenantOrders.codec.encode acmeOrder) ∧
    (serve (uncached cachedTenantOrders) ⟨"org_id","globex"⟩ (.get "1") [acmeOrder]).2 =
      .notFound "1" := by
  refine ⟨cachedTenantOrders_entry,cachedTenantOrders_warm,by decide,?_,?_⟩
  · have hg := (cachedGet_spec cachedTenantOrders_entry.lookup
      (warm_transparent cachedTenantOrders_warm) "1").1
    rw [plainGet_eq cachedTenantOrders_entry.lookup,
      warmCache_table cachedTenantOrders_entry.lookup] at hg
    exact hg
  · have hg : getScoped orders.backend orders.info .postgres "1" "org_id" "globex" [acmeOrder] =
        ([acmeOrder],.error .notFound) :=
      getScoped_lookup cachedTenantOrders_entry.lookup
        (cachedTenantOrders_entry.neutral "globex" (by decide)) "1" [acmeOrder]
    exact congrArg (fun out => (finish (errReply "1") (fun r => .row 200 r) out).2) hg

end SdkApi.CacheTenancy
