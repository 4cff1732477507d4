import SdkApi.ScopedEquivalence

/-!
# What a request leaves of the table

The table after an update, a delete or a create, with and without a tenant.
Both make the same assignments; the tenant condition only narrows the rows
they are made to.
-/

namespace SdkApi.RequestEffects
open GoStrings SqlEngine Tables TableQueries CrudProviders KeyedTable TenantScope ScopedEquivalence
open List

variable {V A : Type} (p : Provider V A) (s : Scope)

def planned (id : String) (body : Option (GoMap A)) : Option (List (String × A)) :=
  match body with
  | none => none
  | some req =>
    match p.hooks.beforeUpdate id req with
    | .error _ => none
    | .ok patch =>
      if resolveBody p patch = [] then none
      else (patchSets p.backend p.info p.driver (resolveBody p patch)).toOption

def Named : Request A → Prop
  | .list q => q.keyset = true → p.driver ≠ .postgres →
      p.backend.plain q.sort = true ∧ ∀ e ∈ q.filters, p.backend.plain e.1 = true
  | .update id (some body) => p.driver ≠ .postgres → ∀ patch,
      p.hooks.beforeUpdate id body = .ok patch →
      ∀ e ∈ patch, p.backend.plain (resolveColumn p.info e.1) = true
  | _ => True

def acceptsUpdate (id : String) (sets : List (String × A)) (tbl : Table V) : Bool :=
  (sets.map Prod.fst).all p.backend.known &&
    !p.backend.fails (.update sets [eqCond p.info.primaryKey (p.backend.text id)]) tbl

def acceptsDelete (id : String) (tbl : Table V) : Bool :=
  !p.backend.fails (.delete [eqCond p.info.primaryKey (p.backend.text id)]) tbl

def prepared (body : Option (Entity A)) : Option (Entity A) :=
  body.bind fun req => (p.hooks.beforeCreate req).toOption

def acceptsInsert (en : Entity A) (tbl : Table V) : Bool :=
  let vals := insertValues p.backend p.info p.driver en tbl
  if p.driver = .mysql ∧ vals = [] then false
  else (vals.map Prod.fst).all p.backend.known && !p.backend.fails (.insert vals) tbl

variable {p s}

section

variable {α : Type} (onError : DbError → Reply V A) (onOk : α → Reply V A) (st : Step V α)
include α

lemma finish_fst : (finish onError onOk st).1 = st.1 := by
  obtain ⟨t,e | a⟩ := st <;> rfl

lemma finish_snd (tbl : Table V) :
    (finish onError onOk st).2 = (finish onError onOk (tbl,st.2)).2 := by
  obtain ⟨t,e | a⟩ := st <;> rfl

end

section

variable {stmt : Stmt A} (hp : ∀ x ∈ stmt.idents, p.backend.plain x) (tbl : Table V)
include hp

lemma query_eq : query p.backend stmt tbl =
      if stmt.idents.all p.backend.known && !p.backend.fails stmt tbl then
        ((p.backend.meaning tbl stmt).table,.ok (p.backend.meaning tbl stmt))
      else (tbl,.error .query) := by
  rw [query, exec_plain_eq hp]
  split_ifs <;> rfl

lemma query_fst : (query p.backend stmt tbl).1 =
      if stmt.idents.all p.backend.known && !p.backend.fails stmt tbl then
        (p.backend.meaning tbl stmt).table else tbl := by
  rw [query_eq hp]
  split_ifs <;> rfl

end

variable {id : String} {sets : List (String × A)} {body : Option (GoMap A)} {tbl : Table V}

lemma planned_eq_some (h : planned p id body = some sets) : ∃ req patch, body = some req ∧
    p.hooks.beforeUpdate id req = .ok patch ∧ resolveBody p patch ≠ [] ∧
    patchSets p.backend p.info p.driver (resolveBody p patch) = .ok sets := by
  cases body with
  | none => simp [planned] at h
  | some req =>
    simp only [planned] at h
    cases hb : p.hooks.beforeUpdate id req with
    | error e => simp [hb] at h
    | ok patch =>
      simp only [hb] at h
      split_ifs at h with hn
      cases hs : patchSets p.backend p.info p.driver (resolveBody p patch) with
      | error e => simp [hs, Except.toOption] at h
      | ok sets' => exact ⟨req,patch,rfl,hb,hn,by simpa [hs, Except.toOption] using h⟩

lemma serveUpdate_fst {effect : List (String × A) → Table V}
    (f : GoMap A → Step V (Row V))
    (hf : ∀ patch, (f patch).1 = if patch = [] then tbl
      else match patchSets p.backend p.info p.driver patch with
        | .error _ => tbl
        | .ok sets => effect sets)
    (body : Option (GoMap A)) (he : ∀ req patch, body = some req →
      p.hooks.beforeUpdate id req = .ok patch →
      (serveUpdate p s id body tbl).1 = (f (resolveBody p patch)).1) :
    (serveUpdate p s id body tbl).1 =
      match planned p id body with
      | none => tbl
      | some sets => effect sets := by
  cases body with
  | none => rfl
  | some req =>
    cases hb : p.hooks.beforeUpdate id req with
    | error e => simp [serveUpdate, planned, hb]
    | ok patch =>
      rw [he req patch rfl hb, hf]
      simp only [planned, hb]
      split_ifs
      · rfl
      · cases patchSets p.backend p.info p.driver (resolveBody p patch) <;> rfl

lemma remove_fst (conds : List (Cond A)) (tbl : Table V) :
    (remove p.backend conds tbl).1 = (query p.backend (.delete conds) tbl).1 := by
  rw [remove]
  rcases query p.backend (.delete conds) tbl with ⟨t,e | r⟩
  · rfl
  · dsimp only
    split_ifs <;> rfl

lemma serveDelete_rejected {e : String} (ho : p.hooks.beforeDelete id = .error e) (tbl : Table V) :
    (serveDelete p s id tbl).1 = tbl := by
  simp [serveDelete, ho]

def hits (p : Provider V A) (id : String) (sets : List (String × A)) (tbl : Table V) :
    List (Row V) :=
  (tbl.filter (denotes p.backend p.info id)).map (p.backend.assign sets)

def answered (p : Provider V A) (id : String) (sets : List (String × A)) (tbl : Table V) :
    Except DbError (Row V) :=
  match p.driver with
  | .mysql => lookup p.backend p.info p.driver id (assigned p.backend p.info id sets tbl)
  | d => oneRow d (hits p id sets tbl)

section

variable (hk : KeyLookup p.backend p.info)
include hk

lemma planned_plain (hn : Named p (.update id body)) (h : planned p id body = some sets) :
    ∀ x ∈ sets, p.backend.plain x.1 := by
  obtain ⟨req,patch,rfl,hb,-,hs⟩ := planned_eq_some h
  refine patchSets_plain hk hs fun hd e he => hn hd patch hb e ?_
  cases hdr : p.driver with
  | postgres => exact absurd hdr hd
  | mysql | turso => simpa [resolveBody, hdr] using he

lemma update_fst (id : String) (patch : GoMap A)
    (tbl : Table V) : (update p.backend p.info p.driver id patch tbl).1 =
      if patch = [] then tbl
      else match patchSets p.backend p.info p.driver patch with
        | .error _ => tbl
        | .ok sets =>
          (query p.backend (.update sets (keyConds p id)) tbl).1 := by
  rw [update]
  split_ifs
  · rfl
  cases patchSets p.backend p.info p.driver patch with
  | error e => rfl
  | ok sets =>
    dsimp only
    rcases query p.backend (.update sets (keyConds p id)) tbl with
      ⟨t,e | r⟩
    · rfl
    · cases hd : p.driver with
      | mysql => exact congrArg Prod.fst (get_eq hk id t)
      | postgres => rfl
      | turso => rfl

lemma updateScoped_fst (hn : Neutral p s) (id : String) (patch : GoMap A) (tbl : Table V) :
    (updateScoped p.backend p.info p.driver id patch s.field s.id tbl).1 =
      if patch = [] then tbl
      else match patchSets p.backend p.info p.driver patch with
        | .error _ => tbl
        | .ok sets => (query p.backend
            (.update sets (ownConds p s id)) tbl).1 := by
  rw [updateScoped, if_neg (show ¬ validColumn p.info s.field = false by simp [hn.valid])]
  split_ifs
  · rfl
  cases patchSets p.backend p.info p.driver patch with
  | error e => rfl
  | ok sets =>
    dsimp only
    rcases query p.backend (.update sets (ownConds p s id)) tbl with
      ⟨t,e | r⟩
    · rfl
    · have hg := fun t => congrArg Prod.fst (getScoped_lookup hk hn id t)
      cases hd : p.driver with
      | postgres => rfl
      | mysql =>
        rw [hd] at hg
        exact hg t
      | turso =>
        rw [hd] at hg
        dsimp only
        split_ifs
        · rfl
        · exact hg t

lemma query_update_plain (id : String) (hl : ∀ x ∈ sets, p.backend.plain x.1) (tbl : Table V) :
    query p.backend (.update sets (keyConds p id)) tbl =
      if acceptsUpdate p id sets tbl then (assigned p.backend p.info id sets tbl,
        .ok ⟨assigned p.backend p.info id sets tbl,hits p id sets tbl,
          (tbl.filter (denotes p.backend p.info id)).length⟩)
      else (tbl,.error .query) := by
  have hn : (Stmt.update sets (keyConds p id)).idents.all
      p.backend.known = (sets.map Prod.fst).all p.backend.known := by
    simp [Stmt.idents, eqCond, hk.known]
  rw [query_eq, hn]
  · simp only [Engine.meaning, satisfies_key]
    rfl
  · exact update_plain hk hl

lemma query_update_tenant (hn : Neutral p s) (id : String)
    (hl : ∀ x ∈ sets, p.backend.plain x.1) (tbl : Table V) :
    query p.backend (.update sets (ownConds p s id)) tbl =
      if acceptsUpdate p id sets tbl then (updated p s id sets tbl,
        .ok (p.backend.meaning tbl (.update sets (ownConds p s id))))
      else (tbl,.error .query) := by
  have ho := known_scopedConds hk hn id
  have hkn : (Stmt.update sets (ownConds p s id)).idents.all
      p.backend.known = (sets.map Prod.fst).all p.backend.known := by
    rw [Stmt.idents, all_append, ho, Bool.and_true]
  rw [query_eq, hkn, hn.update sets sets id tbl (.refl _)]
  · rfl
  · apply update_idents p.backend.plain hl
    intro cond hco
    exact plain_of_known
      (all_eq_true.mp ho cond.ident (mem_map_of_mem hco))

lemma serveUpdate_plain (hs : s.scoped = false) (hn : Named p (.update id body)) (tbl : Table V) :
    (serveUpdate p s id body tbl).1 =
      match planned p id body with
      | none => tbl
      | some sets => if acceptsUpdate p id sets tbl then assigned p.backend p.info id sets tbl
          else tbl := by
  rw [serveUpdate_fst (fun patch => update p.backend p.info p.driver id patch tbl)
    (update_fst hk id · tbl) body]
  · cases hl : planned p id body with
    | none => rfl
    | some sets =>
      dsimp only
      rw [query_update_plain hk id (planned_plain hk hn hl) tbl]
      split_ifs <;> rfl
  · intro req patch hbody hb
    subst hbody
    simp only [serveUpdate, hb, finish_fst, hs, Bool.false_eq_true, if_false]

lemma serveUpdate_answer (hs : s.scoped = false) (hn : Named p (.update id body))
    (hpl : planned p id body = some sets) (tbl : Table V) :
    (serveUpdate p s id body tbl).2 = (finish (errReply id) (fun r => .row 200 r)
      (tbl,if acceptsUpdate p id sets tbl then answered p id sets tbl else .error .query)).2 := by
  have hl := planned_plain hk hn hpl
  obtain ⟨req,patch,rfl,hb,he,hps⟩ := planned_eq_some hpl
  simp only [serveUpdate, hb, hs, Bool.false_eq_true, if_false, update, if_neg he, hps,
    query_update_plain hk id hl]
  split_ifs
  · rw [finish_snd _ _ _ tbl]
    cases hd : p.driver <;> simp only [answered, hd, get_eq hk]
  · rfl

lemma serveUpdate_tenant (he : Neutral p s) (hs : s.scoped)
    (hn : Named p (.update id body)) (tbl : Table V) :
    (serveUpdate p s id body tbl).1 =
      match planned p id body with
      | none => tbl
      | some sets => if acceptsUpdate p id sets tbl then updated p s id sets tbl else tbl := by
  rw [serveUpdate_fst
    (fun patch => updateScoped p.backend p.info p.driver id patch s.field s.id tbl)
    (updateScoped_fst hk he id · tbl) body]
  · cases hl : planned p id body with
    | none => rfl
    | some sets =>
      dsimp only
      rw [query_update_tenant hk he id (planned_plain hk hn hl) tbl]
      split_ifs <;> rfl
  · intro req patch hbody hb
    subst hbody
    simp only [serveUpdate, hb, finish_fst, hs, if_true]

lemma updateScoped_ok (hn : Neutral p s)
    {patch : GoMap A} {r : Row V} (hne : patch ≠ [])
    (hl : ∀ sets, patchSets p.backend p.info p.driver patch = .ok sets →
      ∀ x ∈ sets, p.backend.plain x.1)
    (h : (updateScoped p.backend p.info p.driver id patch s.field s.id tbl).2 = .ok r) :
    ∃ sets, (updateScoped p.backend p.info p.driver id patch s.field s.id tbl).1 =
        updated p s id sets tbl ∧
      ((∃ d ∈ tbl, p.backend.satisfies (ownConds p s id) d ∧
        r = p.backend.assign sets d) ∨ ownedBy p s r) := by
  have hb : ∀ t, (getScoped p.backend p.info p.driver id s.field s.id t).2 = .ok r →
      ownedBy p s r := by
    intro t ht
    rw [getScoped_lookup hk hn] at ht
    dsimp only at ht
    split_ifs at ht
    have ho := oneRow_mem ht
    rw [mem_filter, Bool.and_eq_true] at ho
    exact ho.2.2
  have hfs := updateScoped_fst hk hn id patch tbl
  rw [if_neg hne] at hfs
  rw [updateScoped, if_neg (show ¬ validColumn p.info s.field = false by simp [hn.valid]),
    if_neg hne] at h
  cases he : patchSets p.backend p.info p.driver patch with
  | error e => simp [he] at h
  | ok sets =>
    rw [he] at hfs h
    dsimp only at hfs h
    rw [query_update_tenant hk hn id (hl sets he)] at hfs h
    split_ifs at hfs h
    refine ⟨sets,hfs,?_⟩
    cases hd : p.driver with
    | postgres =>
      simp only [hd] at h
      obtain ⟨d,hd,rfl⟩ := mem_map.mp (oneRow_mem h)
      exact .inl ⟨d,(mem_filter.mp hd).1,(mem_filter.mp hd).2,rfl⟩
    | mysql =>
      rw [hd] at hb
      simp only [hd] at h
      exact .inr (hb _ h)
    | turso =>
      rw [hd] at hb
      simp only [hd] at h
      split_ifs at h
      exact .inr (hb _ h)

lemma serveDelete_plain (hs : s.scoped = false)
    (ho : p.hooks.beforeDelete id = .ok ()) (tbl : Table V) :
    (serveDelete p s id tbl).1 =
      if acceptsDelete p id tbl then tbl.filter fun r => !denotes p.backend p.info id r
      else tbl := by
  simp only [serveDelete, ho, finish_fst, hs, Bool.false_eq_true, if_false, Tables.delete,
    remove_fst]
  rw [query_fst]
  · simp [Stmt.idents, eqCond, hk.known, acceptsDelete, Engine.meaning, ← satisfies_key]
  · intro x hx
    simp only [Stmt.idents, eqCond, map_cons, map_nil, mem_singleton] at hx
    rw [hx]
    exact plain_of_known hk.known

lemma serveDelete_tenant (hn : Neutral p s) (hs : s.scoped)
    (hho : p.hooks.beforeDelete id = .ok ()) (tbl : Table V) :
    (serveDelete p s id tbl).1 =
      if acceptsDelete p id tbl then
        tbl.filter fun r => !(denotes p.backend p.info id r && ownedBy p s r)
      else tbl := by
  have ho := known_scopedConds hk hn id
  simp only [serveDelete, hho, finish_fst, hs, if_true, deleteScoped, hn.valid, remove_fst]
  rw [query_fst, hn.delete]
  · simp [Stmt.idents, ho, acceptsDelete, Engine.meaning, satisfies_scoped]
  · intro x hx
    exact plain_of_known (all_eq_true.mp ho x hx)

lemma create_table_eq (en : Entity A) (tbl : Table V) :
    (create p.backend p.info p.driver en tbl).1 =
      if acceptsInsert p en tbl then tbl++[inserted p.backend p.info p.driver en tbl] else tbl := by
  rw [create_fst, acceptsInsert]
  by_cases he : p.driver = .mysql ∧ insertValues p.backend p.info p.driver en tbl = []
  · simp only [if_pos he, Bool.false_eq_true, if_false]
  · simp only [if_neg he]
    rw [query_fst]
    · rfl
    · intro x hx
      obtain ⟨y,hy,rfl⟩ := mem_map.mp hx
      obtain ⟨f,hf,hfc⟩ := insertValues_names en tbl y hy
      exact hfc ▸ hk.names f hf

lemma serveCreate_plain (hs : s.scoped = false) (body : Option (Entity A)) (tbl : Table V) :
    (serveCreate p s body tbl).1 =
      match prepared p body with
      | none => tbl
      | some en => if acceptsInsert p en tbl then
          tbl++[inserted p.backend p.info p.driver en tbl] else tbl := by
  cases body with
  | none => rfl
  | some req =>
    cases hb : p.hooks.beforeCreate req with
    | error e => simp [serveCreate, prepared, hb, Except.toOption]
    | ok en =>
      simp only [serveCreate, prepared, hb, finish_fst, hs, Bool.false_eq_true, if_false,
        Option.bind_some, Except.toOption]
      exact create_table_eq hk en tbl

lemma serveCreate_tenant {f : FieldInfo}
    (ht : TenantColumn p s f) (body : Option (Entity A)) (tbl : Table V) :
    (serveCreate p s body tbl).1 =
      match prepared p body with
      | none => tbl
      | some en =>
        if acceptsInsert p (Function.update en f.goName (p.backend.text s.id)) tbl then
          tbl++[inserted p.backend p.info p.driver
            (Function.update en f.goName (p.backend.text s.id)) tbl] else tbl := by
  cases body with
  | none => rfl
  | some req =>
    cases hb : p.hooks.beforeCreate req with
    | error e => simp [serveCreate, prepared, hb, Except.toOption]
    | ok en =>
      simp only [serveCreate, prepared, hb, finish_fst, ht.active, if_true, Option.bind_some,
        Except.toOption, createScoped, ht.field]
      exact create_table_eq hk _ tbl

end

end SdkApi.RequestEffects
