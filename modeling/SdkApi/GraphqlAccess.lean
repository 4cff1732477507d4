import SdkApi.CrudEntry
import SdkApi.GraphqlResolvers
import SdkApi.RequestEffects
import SdkApi.TenantIsolation

/-!
# GraphQL against the routes of the crud entry

A model with a tenant field is served by a crud entry and by a graphql entry.
The resolvers call the provider without a tenant, so that they read and write
by key alone. A row that an operation of the schema reads, changes or adds is
compared with what the same caller could read, change or add over HTTP.
-/

namespace SdkApi.GraphqlAccess
open GoStrings HandlerChain RequestContext SqlEngine Tables TableQueries CrudProviders KeyedTable
open List
open TenantScope TenantOperations TenantIsolation ScopedEquivalence RequestEffects CrudEntry
open GraphqlResolvers Function

variable {V A : Type}

structure Deployment (V A : Type) where
  provider : Provider V A
  entry : Entry
  crudMws : List Handler
  graphqlMws : List Handler
  decode : GoMap A → Option (Entity A)

section

variable (p : Provider V A) (entry : Entry) (s : Scope) (tbl : Table V) (r : Row V)

/-- A request of the kind by tenant `s` shows the row and splices no SQL. -/
def Reads : Operation → Prop
  | .get => ∃ id, r ∈ shown (serve p s (.get id) tbl).2
  | .list => ∃ query q, parseListParams entry query = some q ∧ Named p (.list q) ∧
      r ∈ shown (serve p s (.list q) tbl).2
  | .update => ∃ id body, Named p (.update id body) ∧
      ∃ r' ∈ shown (serve p s (.update id body) tbl).2,
        (r,r') ∈ tbl.zip (serve p s (.update id body) tbl).1 ∧ r' ≠ r ∨
        (serve p s (.update id body) tbl).1 = tbl ∧ r' = r
  | _ => False

def Changes : Operation → Prop
  | .update => ∃ id body, Named p (.update id body) ∧
      ∃ r', (r,r') ∈ tbl.zip (serve p s (.update id body) tbl).1 ∧ r' ≠ r
  | .delete => ∃ id, r ∈ tbl ∧ r ∉ (serve p s (.delete id) tbl).1
  | _ => False

def Adds : Operation → Prop
  | .create => ∃ body r', (serve p s (.create body) tbl).1 = tbl++[r'] ∧
      r' (column s) = r (column s)
  | _ => False

end

variable (D : Deployment V A) (c : Ctx)

def HttpMay (does : Scope → Operation → Prop) : Prop :=
  ∃ s, httpScope D.entry D.crudMws c = some s ∧ ∃ op, Served D.entry op ∧ does s op

def CouldRead (tbl : Table V) (r : Row V) : Prop :=
  HttpMay D c fun s => Reads D.provider D.entry s tbl r

def CouldChange (tbl : Table V) (r : Row V) : Prop :=
  HttpMay D c fun s => Changes D.provider s tbl r

def CouldAdd (tbl : Table V) (r : Row V) : Prop :=
  HttpMay D c fun s => Adds D.provider s tbl r

def Calls : Prop := ∃ d, Reaches D.graphqlMws c d

/-- The caller could have read, changed or added all of it over HTTP. -/
def NoMore (op : Op A) (tbl : Table V) : Prop :=
  Calls D c →
    match op with
    | .get _ | .list _ _ _ => ∀ r ∈ shown (resolve D.provider D.decode op tbl).2,
        CouldRead D c tbl r
    | .update _ _ => ∀ r r', (r,r') ∈ tbl.zip (resolve D.provider D.decode op tbl).1 →
        (r' ≠ r → CouldChange D c tbl r) ∧
        (r' ∈ shown (resolve D.provider D.decode op tbl).2 → CouldRead D c tbl r)
    | .delete _ => ∀ r ∈ tbl, r ∉ (resolve D.provider D.decode op tbl).1 → CouldChange D c tbl r
    | .create _ => ∀ r, (resolve D.provider D.decode op tbl).1 = tbl++[r] → CouldAdd D c tbl r

/-- The row is the caller's, and the route of the operation is there. -/
def Mine (op : Operation) (does : Scope → Operation → Prop) (r : Row V) : Prop :=
  ∃ s, httpScope D.entry D.crudMws c = some s ∧ ownedBy D.provider s r = true ∧
    (Served D.entry op ∨ ∃ other, Served D.entry other ∧ does s other)

def MineToRead (tbl : Table V) (r : Row V) : Prop :=
  Mine D c .get (fun s => Reads D.provider D.entry s tbl r) r

def MineToChange (op : Operation) (tbl : Table V) (r : Row V) : Prop :=
  Mine D c op (fun s => Changes D.provider s tbl r) r

def pageColumn (p : Provider V A) (sort : String) : Option String :=
  match p.driver with
  | .postgres => (offsetOrder p.info sort).toOption
  | _ => some p.info.primaryKey

def pageRows (p : Provider V A) (q : ListParams) (tbl : Table V) : List (Row V) :=
  match pageColumn p q.sort with
  | none => []
  | some col =>
    let limit := q.size.toNat
    let offset := ((q.page-1)*q.size).toNat
    if p.backend.fails (.count []) tbl || !p.backend.known col ||
        p.backend.fails (.select [] [col] (some limit) (some offset)) tbl then []
    else page (some limit) (some offset) (tbl.mergeSort (p.backend.le [col]))

def Confined (op : Op A) (tbl : Table V) : Prop :=
  let p := D.provider
  Calls D c → fits p.info op.input = true →
    match op with
    | .get id => ∀ r, lookup p.backend p.info p.driver id tbl = .ok r → MineToRead D c tbl r
    | .list pg size sort => ∀ r ∈ pageRows p (listParams pg size sort) tbl, MineToRead D c tbl r
    | .update id input => ∀ sets, planned p id (some input) = some sets →
        acceptsUpdate p id sets tbl = true →
        ∀ r r', (r,r') ∈ tbl.zip (assigned p.backend p.info id sets tbl) →
          (r' ≠ r → MineToChange D c .update tbl r) ∧
          (answered p id sets tbl = .ok r' → MineToRead D c tbl r)
    | .delete id => p.hooks.beforeDelete id = .ok () → acceptsDelete p id tbl = true →
        ∀ r ∈ tbl, denotes p.backend p.info id r = true → MineToChange D c .delete tbl r
    | .create input => ∀ en, prepared p (D.decode input) = some en →
        acceptsInsert p en tbl = true → ∃ s, httpScope D.entry D.crudMws c = some s ∧
          Served D.entry .create ∧
          inserted p.backend p.info p.driver en tbl (column s) = own p s

/-- No insert is refused because its tenant is written out. -/
structure TenantModel (p : Provider V A) (field : String) (f : FieldInfo) : Prop where
  lookup : KeyLookup p.backend p.info
  column : ∀ tenant ≠ "", TenantColumn p ⟨field,tenant⟩ f
  neutral : ∀ tenant ≠ "", Neutral p ⟨field,tenant⟩
  insert : ∀ tenant ≠ "", ∀ en tbl,
    inserted p.backend p.info p.driver en tbl (TenantScope.column ⟨field,tenant⟩) =
      own p ⟨field,tenant⟩ → acceptsInsert p en tbl = true →
    acceptsInsert p (Function.update en f.goName (p.backend.text tenant)) tbl = true
  inputs : ∀ id input, fits p.info input = true → Named p (.update id (some input))

/-- Every row has a text that denotes no other row. -/
def Keyed (p : Provider V A) (tbl : Table V) : Prop :=
  ∀ r ∈ tbl, ∃ id, tbl.filter (denotes p.backend p.info id) = [r] ∧
    p.backend.fails (keyQuery p.backend p.info id) tbl = false

section

variable {p : Provider V A} {s : Scope} {f : FieldInfo} {tbl : Table V} {r : Row V}

lemma shown_finish {α : Type} {id : String} {onOk : α → Reply V A} {st : Step V α}
    (h : r ∈ shown (finish (errReply id) onOk st).2) : ∃ a, st.2 = .ok a ∧ r ∈ shown (onOk a) := by
  obtain ⟨t,e | a⟩ := st
  · cases e <;> simp [finish, errReply, shown] at h
  · exact ⟨a,rfl,h⟩

lemma shown_of_shows {good : Row V → Prop} {reply : Reply V A} (h : Shows good reply)
    (hr : r ∈ shown reply) : good r := by
  cases reply with
  | list rows cursor total => exact h r hr
  | row n r' => exact mem_singleton.mp hr ▸ h
  | _ => simp [shown] at hr

lemma get_shows_owned (hk : KeyLookup p.backend p.info) (hn : Neutral p s) (hs : s.scoped)
    {id : String} (h : r ∈ shown (serve p s (.get id) tbl).2) : ownedBy p s r := by
  simp only [serve, serveGet, hs, if_true, getScoped_lookup hk hn] at h
  obtain ⟨r',hr',hm⟩ := shown_finish h
  split_ifs at hr'
  have ho := oneRow_mem hr'
  rw [mem_filter, Bool.and_eq_true] at ho
  exact mem_singleton.mp hm ▸ ho.2.2

lemma mem_zip_map {α β : Type} {l : List α} {g : α → β} {a : α} {b : β} :
    (a,b) ∈ l.zip (l.map g) ↔ a ∈ l ∧ g a = b := by
  have hz : l.zip (l.map g) = l.map fun a => (a,g a) := by simpa using @List.zip_map' _ _ _ id g l
  rw [hz]
  simp only [mem_map, Prod.mk.injEq]
  constructor
  · rintro ⟨x,hx,rfl,rfl⟩
    exact ⟨hx,rfl⟩
  · rintro ⟨ha,rfl⟩
    exact ⟨a,ha,rfl,rfl⟩

lemma mem_zip_self {α : Type} {l : List α} {a b : α} (h : (a,b) ∈ l.zip l) : a ∈ l ∧ b = a := by
  have hm := @mem_zip_map _ _ l id a b
  rw [map_id] at hm
  exact ⟨(hm.mp h).1,(hm.mp h).2.symm⟩

section

variable (hk : KeyLookup p.backend p.info) (hn : Neutral p s) (hs : s.scoped)
include hk hn hs

variable {id : String} {body : Option (GoMap A)}

lemma update_changes_owned (ha : Named p (.update id body)) {r' : Row V}
    (hr : (r,r') ∈ tbl.zip (serve p s (.update id body) tbl).1) (he : r' ≠ r) : ownedBy p s r := by
  rw [serve, serveUpdate_tenant hk hn hs ha] at hr
  cases hl : planned p id body with
  | none =>
    rw [hl] at hr
    exact absurd (mem_zip_self hr).2 he
  | some sets =>
    simp only [hl] at hr
    split_ifs at hr
    · obtain ⟨-,hi⟩ := mem_zip_map.mp hr
      split_ifs at hi with ht
      · exact ownedBy_of_satisfies (tenant_mem_scopedConds id) ht
      · exact absurd hi.symm he
    · exact absurd (mem_zip_self hr).2 he

lemma delete_changes_owned (hr : r ∈ tbl)
    (h : r ∉ (serve p s (.delete id) tbl).1) : ownedBy p s r := by
  rw [serve] at h
  cases ho : p.hooks.beforeDelete id with
  | error e =>
    rw [serveDelete_rejected ho] at h
    exact absurd hr h
  | ok u =>
    rw [serveDelete_tenant hk hn hs ho] at h
    split_ifs at h
    · by_contra how
      exact h (mem_filter.mpr ⟨hr,by simp [how]⟩)
    · exact absurd hr h

lemma changes_owned {op : Operation} (h : Changes p s tbl r op) : ownedBy p s r := by
  cases op with
  | update =>
    obtain ⟨id,body,ha,r',hr,he⟩ := h
    exact update_changes_owned hk hn hs ha hr he
  | delete =>
    obtain ⟨id,hr,hg⟩ := h
    exact delete_changes_owned hk hn hs hr hg
  | _ => exact h.elim

lemma update_shows_owned
    (hm : Named p (.update id body)) (ha : (serve p s (.update id body) tbl).1 = tbl)
    (hr : r ∈ shown (serve p s (.update id body) tbl).2) : ownedBy p s r := by
  rw [serve] at ha hr
  cases body with
  | none => simp [serveUpdate, shown] at hr
  | some req =>
    cases hb : p.hooks.beforeUpdate id req with
    | error e => simp [serveUpdate, hb, shown] at hr
    | ok patch =>
      simp only [serveUpdate, hb, hs, if_true] at hr ha
      rw [finish_fst] at ha
      obtain ⟨r0,hr0,hme⟩ := shown_finish hr
      rw [mem_singleton.mp hme]
      have hne : resolveBody p patch ≠ [] := by
        intro he
        rw [he, updateScoped, if_neg (show ¬ validColumn p.info s.field = false by
          simp [hn.valid]), if_pos rfl] at hr0
        simp at hr0
      have hl : ∀ sets, patchSets p.backend p.info p.driver (resolveBody p patch) = .ok sets →
          ∀ x ∈ sets, p.backend.plain x.1 := fun sets hse =>
        planned_plain hk hm (by simp [planned, hb, hne, hse, Except.toOption])
      obtain ⟨sets,ht,⟨d,hd,hsa,rfl⟩ | ho⟩ := updateScoped_ok hk hn hne hl hr0
      · -- nothing is changed, so that the row that is shown is the row that was hit
        have hi := map_inj_left.mp ((ht.symm.trans ha).trans (map_id tbl).symm) d hd
        rw [if_pos hsa] at hi
        rw [hi]
        exact ownedBy_of_satisfies (tenant_mem_scopedConds id) hsa
      · exact ho

end

lemma reads_owned [DecidableEq V] {entry : Entry} (hk : KeyLookup p.backend p.info)
    (ht : TenantColumn p s f) (hn : Neutral p s) {op : Operation}
    (h : Reads p entry s tbl r op) : ownedBy p s r := by
  cases op with
  | get =>
    obtain ⟨id,hr⟩ := h
    exact get_shows_owned hk hn ht.active hr
  | list =>
    obtain ⟨query,q,-,ha,hr⟩ := h
    exact (shown_of_shows (serveList_owned ht tbl q ha).2 hr).2
  | update =>
    obtain ⟨id,body,ha,r',hr',⟨hi,he⟩ | ⟨hm,rfl⟩⟩ := h
    · exact update_changes_owned hk hn ht.active ha hi he
    · exact update_shows_owned hk hn ht.active ha hm hr'
  | _ => exact h.elim

section

variable (hk : KeyLookup p.backend p.info) (hn : Neutral p s) (hs : s.scoped) {id : String}
include hk hn hs

lemma reads_get {entry : Entry} (he : Keyed p tbl) (hr : r ∈ tbl) (ho : ownedBy p s r) :
    Reads p entry s tbl r .get := by
  obtain ⟨id,hon,ha⟩ := he r hr
  have hi : (tbl.filter fun r => denotes p.backend p.info id r && ownedBy p s r) = [r] := by
    simp only [Bool.and_comm (denotes p.backend p.info id _)]
    rw [← filter_filter, hon]
    simp [ho]
  refine ⟨id,?_⟩
  simp only [serve, serveGet, hs, if_true, getScoped_lookup hk hn, ha, Bool.false_eq_true,
    if_false, hi]
  cases p.driver <;> simp [oneRow, finish, shown]

lemma changes_update {body : Option (GoMap A)}
    (ha : Named p (.update id body)) {sets : List (String × A)}
    (hl : planned p id body = some sets) (hac : acceptsUpdate p id sets tbl)
    {r' : Row V} (hr : (r,r') ∈ tbl.zip (assigned p.backend p.info id sets tbl)) (he : r' ≠ r)
    (ho : ownedBy p s r) : Changes p s tbl r .update := by
  refine ⟨id,body,ha,r',?_,he⟩
  obtain ⟨hm,hi⟩ := mem_zip_map.mp hr
  have hd : denotes p.backend p.info id r := by
    by_contra hd
    rw [if_neg hd] at hi
    exact he hi.symm
  rw [serve, serveUpdate_tenant hk hn hs ha]
  simp only [hl, hac, if_true]
  refine mem_zip_map.mpr ⟨hm,?_⟩
  rw [satisfies_scoped, hd, ho, ← hi, if_pos hd]
  rfl

lemma changes_delete (ho : p.hooks.beforeDelete id = .ok ()) (ha : acceptsDelete p id tbl)
    (hr : r ∈ tbl) (hd : denotes p.backend p.info id r) (how : ownedBy p s r) :
    Changes p s tbl r .delete := by
  refine ⟨id,hr,?_⟩
  rw [serve, serveDelete_tenant hk hn hs ho, if_pos ha]
  simp [hd, how]

end

lemma inserted_own (ht : TenantColumn p s f) {en : Entity A}
    (he : en f.goName = p.backend.text s.id) :
    inserted p.backend p.info p.driver en tbl (column s) = own p s := by
  have ha : ∃ en', en' f.goName = p.backend.text s.id ∧
      insertValues p.backend p.info p.driver en tbl =
        insertColumns p.backend p.info p.driver en' := by
    cases hd : p.driver with
    | mysql => exact ⟨_,ensureStringPK_tenant ht tbl he,rfl⟩
    | postgres | turso => exact ⟨en,he,rfl⟩
  obtain ⟨en',he',ha⟩ := ha
  obtain ⟨ho,hm⟩ := insertColumns_tenant ht he'
  rw [inserted, ha]
  exact assign_of_forall
    (fun x hx hl => by rw [(ho x hx).2 hl, own]) (.inr hm)

lemma adds_create_iff (hk : KeyLookup p.backend p.info) (ht : TenantColumn p s f)
    {body : Option (Entity A)} {en : Entity A} (hen : prepared p body = some en)
    (hac : inserted p.backend p.info p.driver en tbl (column s) = own p s →
      acceptsInsert p (update en f.goName (p.backend.text s.id)) tbl) :
    Adds p s tbl (inserted p.backend p.info p.driver en tbl) .create ↔
      inserted p.backend p.info p.driver en tbl (column s) = own p s := by
  constructor
  · rintro ⟨body',r',ha,he⟩
    rw [serve, serveCreate_tenant hk ht] at ha
    rw [← he]
    cases hp : prepared p body' with
    | none => simp [hp] at ha
    | some en' =>
      simp only [hp] at ha
      split_ifs at ha
      · obtain rfl : inserted p.backend p.info p.driver
            (update en' f.goName (p.backend.text s.id)) tbl = r' := by simpa using ha
        exact inserted_own ht (by simp)
      · simp at ha
  · intro he
    refine ⟨body,inserted p.backend p.info p.driver
      (update en f.goName (p.backend.text s.id)) tbl,?_,?_⟩
    · rw [serve, serveCreate_tenant hk ht]
      simp only [hen, hac he, if_true]
    · rw [he, inserted_own ht (by simp)]

end

end SdkApi.GraphqlAccess
