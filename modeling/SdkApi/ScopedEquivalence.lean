import SdkApi.KeyedTable
import SdkApi.TenantScope

/-!
# When the tenant condition makes no difference

A scoped operation on one record and the unscoped one do the same when every
row that the id denotes is the tenant's own.
-/

namespace SdkApi.ScopedEquivalence
open GoStrings SqlEngine Tables CrudProviders KeyedTable TenantScope
open List hiding lookup

variable {V A : Type} (p : Provider V A) (s : Scope)

def Owned (id : String) (tbl : Table V) : Prop :=
  ∀ r ∈ tbl, denotes p.backend p.info id r = true → ownedBy p s r = true

/-- No statement is refused for its tenant condition or order of assignments. -/
structure Neutral : Prop where
  valid : validColumn p.info s.field = true
  known : p.backend.known s.field = true
  select : ∀ id tbl, p.backend.fails
    (.select (scopedConds p.backend p.info id s.field s.id) [] none none) tbl =
      p.backend.fails (keyQuery p.backend p.info id) tbl
  update : ∀ sets sets' id tbl, sets.Perm sets' → p.backend.fails
    (.update sets' (scopedConds p.backend p.info id s.field s.id)) tbl =
      p.backend.fails (.update sets [eqCond p.info.primaryKey (p.backend.text id)]) tbl
  delete : ∀ id tbl, p.backend.fails
    (.delete (scopedConds p.backend p.info id s.field s.id)) tbl =
      p.backend.fails (.delete [eqCond p.info.primaryKey (p.backend.text id)]) tbl

variable {p s}

abbrev keyConds (p : Provider V A) (id : String) : List (Cond A) :=
  [eqCond p.info.primaryKey (p.backend.text id)]

lemma satisfies_scoped (id : String) (r : Row V) :
    p.backend.satisfies (ownConds p s id) r =
      (denotes p.backend p.info id r && ownedBy p s r) := by
  simp [Engine.satisfies, scopedConds, eqCond, denotes, keyColumn, ownedBy, column]

variable {tbl : Table V} {id : String} {patch : GoMap A}

lemma satisfies_owned (ho : Owned p s id tbl) {r : Row V}
    (hr : r ∈ tbl) : p.backend.satisfies (ownConds p s id) r =
      p.backend.satisfies (keyConds p id) r := by
  rw [satisfies_scoped, satisfies_key]
  cases hd : denotes p.backend p.info id r with
  | false => rfl
  | true => rw [ho r hr hd, Bool.and_true]

lemma filter_owned (ho : Owned p s id tbl) : tbl.filter (p.backend.satisfies (ownConds p s id)) =
    tbl.filter (p.backend.satisfies (keyConds p id)) :=
  filter_congr fun _ hr => satisfies_owned ho hr

section

variable (hk : KeyLookup p.backend p.info) (hn : Neutral p s)
include hk hn

lemma known_scopedConds (id : String) :
    ((ownConds p s id).map Cond.ident).all p.backend.known := by
  simp [scopedConds, eqCond, hk.known, hn.known]

lemma getScoped_lookup (id : String) (tbl : Table V) :
    getScoped p.backend p.info p.driver id s.field s.id tbl =
      (tbl,if p.backend.fails (keyQuery p.backend p.info id) tbl then .error .query
        else oneRow p.driver (tbl.filter fun r =>
          denotes p.backend p.info id r && ownedBy p s r)) := by
  have ho : ((Stmt.select (ownConds p s id) [] none none).idents).all
      p.backend.known := by simpa [Stmt.idents] using known_scopedConds hk hn id
  have hu : p.backend.satisfies (ownConds p s id) =
      fun r => denotes p.backend p.info id r && ownedBy p s r := funext (satisfies_scoped id)
  simp only [getScoped, hn.valid, if_true, fetch, query]
  rw [exec_known _ ho, hn.select]
  by_cases hf : p.backend.fails (keyQuery p.backend p.info id) tbl
  · simp [hf]
  · simp only [hf, Bool.false_eq_true, if_false, Engine.meaning, page, Option.getD_none,
      drop_zero, hu, sort_nil]

lemma getScoped_eq {id : String} {tbl : Table V} (ho : Owned p s id tbl) :
    getScoped p.backend p.info p.driver id s.field s.id tbl =
      get p.backend p.info p.driver id tbl := by
  have hi : (tbl.filter fun r => denotes p.backend p.info id r && ownedBy p s r) =
      tbl.filter (denotes p.backend p.info id) := by
    refine filter_congr fun r hr => ?_
    cases hd : denotes p.backend p.info id r with
    | false => rfl
    | true => rw [ho r hr hd, Bool.and_true]
  rw [getScoped_lookup hk hn, get_eq hk, hi, lookup]

lemma deleteScoped_eq {id : String} {tbl : Table V} (ho : Owned p s id tbl) :
    deleteScoped p.backend p.info id s.field s.id tbl = delete p.backend p.info id tbl := by
  have he : ((Stmt.delete (ownConds p s id)).idents).all
      p.backend.known := by simpa [Stmt.idents] using known_scopedConds hk hn id
  have hl : ((Stmt.delete (keyConds p id)).idents).all
      p.backend.known := by simp [Stmt.idents, eqCond, hk.known]
  have ht : (tbl.filter fun r =>
      !p.backend.satisfies (ownConds p s id) r) =
      tbl.filter fun r => !p.backend.satisfies (keyConds p id) r :=
    filter_congr fun r hr => by rw [satisfies_owned ho hr]
  simp only [deleteScoped, hn.valid, if_true, Tables.delete, remove, query]
  rw [exec_known _ he, exec_known _ hl, hn.delete]
  split_ifs
  · rfl
  · simp only [Engine.meaning, filter_owned ho, ht]
    rfl

end

lemma resolvePatchColumns_perm {α : Type} (info : TableInfo) {patch : GoMap α}
    (hnd : (patch.map fun e => resolveColumn info e.1).Nodup) :
    (resolvePatchColumns info patch).Perm (patch.map fun e => (resolveColumn info e.1,e.2)) := by
  have hg : ∀ m : GoMap α,
      ((patch.map fun e => resolveColumn info e.1)++m.map Prod.fst).Nodup →
      (patch.foldl (fun m e => set m (resolveColumn info e.1) e.2) m).Perm
        ((patch.map fun e => (resolveColumn info e.1,e.2))++m) := by
    clear hnd
    induction patch with
    | nil => intro m _; exact .refl _
    | cons e patch ih =>
      intro m hm
      have ht : set m (resolveColumn info e.1) e.2 = (resolveColumn info e.1,e.2)::m := by
        rw [Tables.set, filter_eq_self.mpr]
        intro x hx
        simp only [map_cons, cons_append, nodup_cons, mem_append, not_or] at hm
        simpa using fun he => hm.1.2 (mem_map.mpr ⟨x,hx,he⟩)
      rw [foldl_cons, ht]
      refine (ih _ ?_).trans ?_
      · simp only [map_cons, cons_append] at hm ⊢
        exact (perm_middle.nodup_iff).mpr hm
      · simp only [map_cons, cons_append]
        exact perm_middle
  simpa [resolvePatchColumns] using hg [] (by simpa using hnd)

/-- Resolving the keys again changes nothing, and none share a column. -/
def Settled (p : Provider V A) (patch : GoMap A) : Prop :=
  p.driver = .postgres →
    (∀ e ∈ patch, resolveColumn p.info (resolveColumn p.info e.1) = resolveColumn p.info e.1) ∧
    (patch.map fun e => toLower (resolveColumn p.info e.1)).Nodup

lemma resolveBody_perm (hp : Settled p patch) (hd : p.driver = .postgres) :
    (p.backend.iterate (resolvePatchColumns p.info (p.backend.iterate (resolveBody p patch)))).Perm
      (patch.map fun e => (resolveColumn p.info e.1,e.2)) ∧
    (p.backend.iterate (resolvePatchColumns p.info (p.backend.iterate patch))).Perm
      (patch.map fun e => (resolveColumn p.info e.1,e.2)) := by
  obtain ⟨hm,hnd⟩ := hp hd
  have hn' : (patch.map fun e => resolveColumn p.info e.1).Nodup := by
    have h : (patch.map fun e => toLower (resolveColumn p.info e.1)) =
        (patch.map fun e => resolveColumn p.info e.1).map toLower := by simp
    rw [h] at hnd
    exact hnd.of_map _
  have hi := p.backend.iterate_perm patch
  have ho : (resolvePatchColumns p.info (p.backend.iterate patch)).Perm
      (patch.map fun e => (resolveColumn p.info e.1,e.2)) :=
    (resolvePatchColumns_perm p.info ((hi.map _).nodup_iff.mpr hn')).trans (hi.map _)
  refine ⟨(p.backend.iterate_perm _).trans ?_,(p.backend.iterate_perm _).trans ho⟩
  simp only [resolveBody, hd]
  have hstep := (p.backend.iterate_perm (resolvePatchColumns p.info (p.backend.iterate patch))).trans
    ho
  have ha := hstep.map fun e => (resolveColumn p.info e.1,e.2)
  have ht : (patch.map fun e => (resolveColumn p.info e.1,e.2)).map
      (fun e => (resolveColumn p.info e.1,e.2)) =
      patch.map fun e => (resolveColumn p.info e.1,e.2) := by
    rw [map_map]
    exact map_congr_left fun e he => by simp [hm e he]
  rw [ht] at ha
  refine (resolvePatchColumns_perm p.info ?_).trans ha
  have hy := ha.map Prod.fst
  simp only [map_map, Function.comp_def] at hy
  exact hy.nodup_iff.mpr hn'

lemma exec_plain_eq {e : Engine V A} {stmt : Stmt A} {tbl : Table V}
    (hp : ∀ x ∈ stmt.idents, e.plain x) :
    e.exec stmt tbl =
      if stmt.idents.all e.known && !e.fails stmt tbl then some (e.meaning tbl stmt) else none := by
  have hl : stmt.idents.all e.plain := all_eq_true.mpr hp
  simp [Engine.exec, hl]

lemma exec_update_scoped (hk : KeyLookup p.backend p.info) (hn : Neutral p s)
    (ho : Owned p s id tbl) {sets sets' : List (String × A)}
    (he : sets.Perm sets') (ha : ∀ r, p.backend.assign sets' r = p.backend.assign sets r)
    (hl : ∀ x ∈ sets, p.backend.plain x.1) :
    p.backend.exec (.update sets' (ownConds p s id)) tbl =
      p.backend.exec (.update sets (keyConds p id)) tbl := by
  have hy := plain_of_known hk.known
  have hfi := plain_of_known hn.known
  have hp' : ∀ x ∈ sets', p.backend.plain x.1 :=
    fun x hx => hl x (he.mem_iff.mpr hx)
  have hna : (sets'.map Prod.fst).all p.backend.known = (sets.map Prod.fst).all p.backend.known :=
    ((he.map Prod.fst).all_eq).symm
  have hm : p.backend.meaning tbl (.update sets' (ownConds p s id)) =
      p.backend.meaning tbl (.update sets (keyConds p id)) := by
    have hu : p.backend.assign sets' = p.backend.assign sets := funext ha
    have hma : (tbl.map fun r =>
        if p.backend.satisfies (ownConds p s id) r then p.backend.assign sets r else r) =
        tbl.map fun r => if p.backend.satisfies (keyConds p id) r then
          p.backend.assign sets r else r :=
      map_congr_left fun r hr => by rw [satisfies_owned ho hr]
    simp only [Engine.meaning, filter_owned ho, hu, hma]
  rw [exec_plain_eq ?_, exec_plain_eq ?_, hm, hn.update sets sets' id tbl he]
  · simp only [Stmt.idents, all_append, hna, known_scopedConds hk hn id, keyConds, eqCond,
      map_cons, map_nil, all_cons, all_nil, hk.known, Bool.and_true]
  · exact update_plain hk hl
  · apply update_idents p.backend.plain hp'
    simpa [scopedConds, eqCond] using ⟨hy,hfi⟩

lemma owned_assigned (ho : Owned p s id tbl) (hx : Exact p s tbl) {sets : List (String × A)}
    (hs : ∀ x ∈ sets, toLower x.1 = column s → p.backend.store (column s) x.2 = own p s) :
    Owned p s id (assigned p.backend p.info id sets tbl) := by
  intro r' hr' hd'
  obtain ⟨r,hr,rfl⟩ := mem_map.mp hr'
  by_cases hd : denotes p.backend p.info id r
  · rw [if_pos hd]
    have how := ho r hr hd
    have ha : r (column s) = own p s := hx r hr how
    rw [ownedBy, assign_of_forall hs (.inl ha), ← ha]
    exact how
  · rw [if_neg hd] at hd'
    exact absurd hd' hd

lemma patchSets_resolveBody (hp : Settled p patch) :
    (∃ e e', patchSets p.backend p.info p.driver patch = .error e ∧
        patchSets p.backend p.info p.driver (resolveBody p patch) = .error e' ∧
        e ≠ .notFound ∧ e' ≠ .notFound) ∨
      ∃ sets sets', patchSets p.backend p.info p.driver patch = .ok sets ∧
        patchSets p.backend p.info p.driver (resolveBody p patch) = .ok sets' ∧
        sets.Perm sets' ∧ ∀ r, p.backend.assign sets' r = p.backend.assign sets r := by
  cases hd : p.driver with
  | mysql | turso => exact .inr ⟨_,_,rfl,by simp [resolveBody, hd, patchSets],.refl _,fun _ => rfl⟩
  | postgres =>
    obtain ⟨ht,ho⟩ := resolveBody_perm hp hd
    have he := ho.trans ht.symm
    have hnd : ((p.backend.iterate (resolvePatchColumns p.info (p.backend.iterate patch))).map
        fun x => toLower x.1).Nodup := by
      have hke := ho.map fun x => toLower x.1
      rw [map_map] at hke
      exact hke.nodup_iff.mpr (hp hd).2
    simp only [patchSets]
    cases h1 : (p.backend.iterate (resolvePatchColumns p.info (p.backend.iterate patch))).find?
        fun x => !validColumn p.info x.1 with
    | some x =>
      cases h2 : (p.backend.iterate (resolvePatchColumns p.info
          (p.backend.iterate (resolveBody p patch)))).find? fun x => !validColumn p.info x.1 with
      | some y => exact .inl ⟨_,_,rfl,rfl,by simp,by simp⟩
      | none =>
        have hx := find?_some h1
        rw [find?_eq_none] at h2
        exact absurd hx (h2 x (he.mem_iff.mp (mem_of_find?_eq_some h1)))
    | none =>
      cases h2 : (p.backend.iterate (resolvePatchColumns p.info
          (p.backend.iterate (resolveBody p patch)))).find? fun x => !validColumn p.info x.1 with
      | some y =>
        have hy := find?_some h2
        rw [find?_eq_none] at h1
        exact absurd hy (h1 y (he.mem_iff.mpr (mem_of_find?_eq_some h2)))
      | none =>
        exact .inr ⟨_,_,rfl,rfl,he,fun r =>
          (assign_perm he hnd r).symm⟩

lemma resolveBody_eq_nil : resolveBody p patch = [] ↔ patch = [] := by
  cases hd : p.driver <;> simp [resolveBody, hd, resolved_nil_iff]

structure Agreeable (p : Provider V A) (s : Scope) (patch : GoMap A) : Prop where
  settled : Settled p patch
  plain : p.driver ≠ .postgres → ∀ e ∈ patch, p.backend.plain (resolveColumn p.info e.1) = true
  tenant : ∀ e ∈ patch, toLower (resolveColumn p.info e.1) = column s →
    p.backend.store (column s) e.2 = own p s

lemma updateScoped_eq (hk : KeyLookup p.backend p.info) (hn : Neutral p s) (hd : p.driver ≠ .turso)
    (ho : Owned p s id tbl) (hx : Exact p s tbl) (hp : Agreeable p s patch) :
    (∃ e e', update p.backend p.info p.driver id patch tbl = (tbl,.error e) ∧
        updateScoped p.backend p.info p.driver id (resolveBody p patch) s.field s.id tbl =
          (tbl,.error e') ∧ e ≠ .notFound ∧ e' ≠ .notFound) ∨
      updateScoped p.backend p.info p.driver id (resolveBody p patch) s.field s.id tbl =
        update p.backend p.info p.driver id patch tbl := by
  rw [updateScoped, update, if_neg (show ¬ validColumn p.info s.field = false by simp [hn.valid])]
  by_cases hm : patch = []
  · rw [if_pos hm, if_pos (resolveBody_eq_nil.mpr hm)]
    exact .inr rfl
  rw [if_neg hm, if_neg fun h => hm (resolveBody_eq_nil.mp h)]
  rcases patchSets_resolveBody hp.settled with ⟨e,e',h1,h2,hne,hn'⟩ | ⟨sets,sets',h1,h2,hpe,ha⟩
  · rw [h1, h2]
    exact .inl ⟨e,e',rfl,rfl,hne,hn'⟩
  rw [h1, h2]
  refine .inr ?_
  have hl := patchSets_plain hk h1 hp.plain
  have ht : ∀ x ∈ sets, toLower x.1 = column s → p.backend.store (column s) x.2 = own p s := by
    intro x hxs
    obtain ⟨⟨e,he,rfl⟩,-⟩ := mem_patchSets h1 hxs
    exact hp.tenant e he
  simp only [query, exec_update_scoped hk hn ho hpe ha hl]
  cases he : p.backend.exec (.update sets (keyConds p id)) tbl with
  | none => rfl
  | some r =>
    have hr : r.table = assigned p.backend p.info id sets tbl := by
      obtain ⟨rfl,-⟩ := exec_plain he (update_plain hk hl)
      simp only [Engine.meaning, satisfies_key, assigned]
    cases hdr : p.driver with
    | postgres => rfl
    | turso => exact absurd hdr hd
    | mysql =>
      have hg := getScoped_eq hk hn (hr ▸ owned_assigned ho hx ht : Owned p s id r.table)
      rw [hdr] at hg
      exact hg

end SdkApi.ScopedEquivalence
