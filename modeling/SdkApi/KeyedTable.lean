import SdkApi.Tables

/-!
# Lookups by primary key

What a lookup answers depends on the rows whose key compares equal to the
given text. Two texts may denote one row. The lemmas say how an insert, an
update or a delete by key changes the lookups of the same and of other texts.
-/

namespace SdkApi.KeyedTable
open GoStrings SqlEngine Tables List

variable {V A : Type} (b : Backend V A) (info : TableInfo) (d : Driver)

def keyColumn : String := toLower info.primaryKey

def denotes (id : String) (r : Row V) : Bool :=
  b.holds .eq (keyColumn info) (r (keyColumn info)) (b.text id)

def keyQuery (id : String) : Stmt A :=
  .select [eqCond info.primaryKey (b.text id)] [] none none

/-- A lookup is refused, if at all, because of its argument. -/
structure KeyLookup : Prop where
  known : b.known info.primaryKey = true
  names : ∀ f ∈ info.fields, b.plain f.column = true
  refused : ∀ id tbl tbl', b.fails (keyQuery b info id) tbl = b.fails (keyQuery b info id) tbl'

def lookup (id : String) (tbl : Table V) : Except DbError (Row V) :=
  if b.fails (keyQuery b info id) tbl then .error .query
  else oneRow d (tbl.filter (denotes b info id))

variable {b info d}

lemma satisfies_key (id : String) :
    b.satisfies [eqCond info.primaryKey (b.text id)] = denotes b info id := by
  funext r
  simp [Engine.satisfies, eqCond, denotes, keyColumn]

variable (h : KeyLookup b info)
include h

lemma get_eq (id : String) (tbl : Table V) :
    get b info d id tbl = (tbl,lookup b info d id tbl) := by
  have hl := plain_of_known h.known
  simp only [Tables.get, fetch, query, Engine.exec, Stmt.idents, eqCond, map_cons,
    map_nil, append_nil, all_cons, all_nil, hl, h.known, Bool.and_true,
    if_true, Bool.true_and, lookup, keyQuery]
  by_cases hf : b.fails (.select [⟨info.primaryKey,.eq,b.text id⟩] [] none none) tbl
  · simp [hf]
  · simp only [hf, Bool.not_false, if_true, Bool.false_eq_true, if_false, Engine.meaning, page,
      Option.getD_none, drop_zero]
    rw [show [(⟨info.primaryKey,.eq,b.text id⟩ : Cond A)] = [eqCond info.primaryKey (b.text id)]
      from rfl, satisfies_key, sort_nil]

lemma lookup_congr (id : String) {tbl tbl' : Table V}
    (hf : tbl'.filter (denotes b info id) = tbl.filter (denotes b info id)) :
    lookup b info d id tbl' = lookup b info d id tbl := by
  rw [lookup, lookup, h.refused id tbl' tbl, hf]

def insertValues (b : Backend V A) (info : TableInfo) (d : Driver) (en : Entity A)
    (tbl : Table V) : List (String × A) :=
  match d with
  | .mysql => insertColumns b info d (ensureStringPK b info en tbl)
  | _ => insertColumns b info d en

def inserted (b : Backend V A) (info : TableInfo) (d : Driver) (en : Entity A) (tbl : Table V) :
    Row V :=
  b.assign (insertValues b info d en tbl) (b.fill (insertValues b info d en tbl) tbl)

lemma query_insert (vals : List (String × A))
    (ha : ∀ x ∈ vals, ∃ f ∈ info.fields, f.column = x.1) (tbl : Table V) :
    (query b (.insert vals) tbl).1 = tbl ∨
      (query b (.insert vals) tbl).1 = tbl++[b.assign vals (b.fill vals tbl)] := by
  rw [query]
  cases he : b.exec (.insert vals) tbl with
  | none => exact .inl rfl
  | some r =>
    obtain ⟨rfl,-⟩ := exec_plain he (fun x hx => by
      obtain ⟨y,hy,rfl⟩ := mem_map.mp hx
      obtain ⟨f,hf,hfc⟩ := ha y hy
      exact hfc ▸ h.names f hf)
    exact .inr rfl

variable (en : Entity A)

omit h in
lemma insertColumns_names : ∀ x ∈ insertColumns b info d en, ∃ f ∈ info.fields, f.column = x.1 := by
  intro x hx
  obtain ⟨f,hf,rfl⟩ := mem_map.mp hx
  exact ⟨f,(mem_filter.mp hf).1,rfl⟩

omit h in
lemma insertValues_names (tbl : Table V) :
    ∀ x ∈ insertValues b info d en tbl, ∃ f ∈ info.fields, f.column = x.1 := by
  cases d with
  | mysql | postgres | turso => exact insertColumns_names _

omit h in
lemma create_fst (tbl : Table V) :
    (create b info d en tbl).1 =
      if d = .mysql ∧ insertValues b info d en tbl = [] then tbl
      else (query b (.insert (insertValues b info d en tbl)) tbl).1 := by
  cases d with
  | mysql =>
    simp only [create, insertValues, true_and]
    split_ifs
    · rfl
    · rcases query b (.insert (insertColumns b info .mysql (ensureStringPK b info en tbl))) tbl with
        ⟨t,e | r⟩
      · rfl
      · dsimp only
        split <;> rfl
  | postgres =>
    simp only [create, insertValues, reduceCtorEq, false_and, if_false]
    rcases query b (.insert (insertColumns b info .postgres en)) tbl with ⟨t,e | r⟩
    · rfl
    · dsimp only
      split <;> rfl
  | turso =>
    simp only [create, insertValues, reduceCtorEq, false_and, if_false]
    rcases query b (.insert (insertColumns b info .turso en)) tbl with ⟨t,e | r⟩
    · rfl
    · dsimp only
      split <;> rfl

lemma create_table (en : Entity A) (tbl : Table V) :
    (create b info d en tbl).1 = tbl ∨
      (create b info d en tbl).1 = tbl++[inserted b info d en tbl] := by
  rw [create_fst]
  split_ifs
  · exact .inl rfl
  · exact query_insert h _ (insertValues_names en tbl) tbl

lemma create_lookup {en : Entity A} {tbl : Table V} {id : String}
    (hi : denotes b info id (inserted b info d en tbl) = false) :
    lookup b info d id (create b info d en tbl).1 = lookup b info d id tbl := by
  refine lookup_congr h id ?_
  rcases create_table h en tbl with ht | ht
  · rw [ht]
  · rw [ht, filter_append]
    simp [hi]

def assigned (b : Backend V A) (info : TableInfo) (id : String) (sets : List (String × A))
    (tbl : Table V) : Table V :=
  tbl.map fun r => if denotes b info id r then b.assign sets r else r

/-- What a patch stores in the key column is the key that the row has. -/
structure KeepsKey (b : Backend V A) (info : TableInfo) (d : Driver) (id : String)
    (patch : GoMap A) (tbl : Table V) : Prop where
  plain : d ≠ .postgres → ∀ e ∈ patch, b.plain (resolveColumn info e.1) = true
  key : ∀ e ∈ patch, toLower (resolveColumn info e.1) = keyColumn info →
    ∀ r ∈ tbl, denotes b info id r = true → b.store (keyColumn info) e.2 = r (keyColumn info)

section

variable {id : String} {patch : GoMap A} {tbl : Table V} (hk : KeepsKey b info d id patch tbl)
  {sets : List (String × A)} (hs : patchSets b info d patch = .ok sets)
include hk hs

omit h in
lemma assign_key {r : Row V} (hr : r ∈ tbl) (hd : denotes b info id r) :
    b.assign sets r (keyColumn info) = r (keyColumn info) := by
  refine assign_of_forall (fun x hx ho => ?_) (.inl rfl)
  obtain ⟨⟨e,he,rfl⟩,-⟩ := mem_patchSets hs hx
  exact hk.key e he ho r hr hd

omit h in
lemma denotes_assigned (id' : String) {r : Row V} (hr : r ∈ tbl) (hd : denotes b info id r) :
    denotes b info id' (b.assign sets r) = denotes b info id' r := by
  rw [denotes, denotes, assign_key hk hs hr hd]

end

variable {tbl : Table V} {id id' : String} {patch : GoMap A}

omit h in
lemma filter_assigned_other (hk : KeepsKey b info d id patch tbl) {sets : List (String × A)}
    (hs : patchSets b info d patch = .ok sets)
    (ho : ∀ r ∈ tbl, ¬ (denotes b info id r ∧ denotes b info id' r)) :
    (assigned b info id sets tbl).filter (denotes b info id') = tbl.filter (denotes b info id') := by
  have hg : ∀ l : Table V, (∀ r ∈ l, r ∈ tbl) →
      (assigned b info id sets l).filter (denotes b info id') = l.filter (denotes b info id') := by
    intro l hl
    induction l with
    | nil => rfl
    | cons r l ih =>
      have ih := ih fun x hx => hl x (by simp [hx])
      simp only [assigned, map_cons] at ih ⊢
      by_cases hd : denotes b info id r
      · have hr := hl r (by simp)
        have hn : denotes b info id' r = false := by simpa [hd] using ho r hr
        rw [if_pos hd, filter_cons, filter_cons, denotes_assigned hk hs id' hr hd, hn]
        simpa using ih
      · rw [if_neg hd, filter_cons, filter_cons, ih]
  exact hg tbl fun _ hr => hr

def updateAnswer (b : Backend V A) (info : TableInfo) (d : Driver) (id : String)
    (sets : List (String × A)) (tbl : Table V) : Except DbError (Row V) :=
  match d with
  | .mysql => lookup b info d id (assigned b info id sets tbl)
  | _ => oneRow d ((tbl.filter (denotes b info id)).map (b.assign sets))

lemma patchSets_plain {sets : List (String × A)}
    (hs : patchSets b info d patch = .ok sets)
    (hp : d ≠ .postgres → ∀ e ∈ patch, b.plain (resolveColumn info e.1)) :
    ∀ x ∈ sets, b.plain x.1 := by
  intro x hx
  obtain ⟨⟨e,he,rfl⟩,ha⟩ := mem_patchSets hs hx
  by_cases hd : d = .postgres
  · exact plain_of_column h.names (ha hd)
  · exact hp hd e he

lemma update_plain {sets : List (String × A)}
    (hl : ∀ x ∈ sets, b.plain x.1) :
    ∀ x ∈ (Stmt.update sets [eqCond info.primaryKey (b.text id)]).idents, b.plain x :=
  update_idents b.plain hl (by simpa [eqCond] using plain_of_known h.known)

lemma update_cases {id : String} {patch : GoMap A} {tbl : Table V}
    (hp : d ≠ .postgres → ∀ e ∈ patch, b.plain (resolveColumn info e.1)) :
    (∃ e, update b info d id patch tbl = (tbl,.error e)) ∨
      ∃ sets, patchSets b info d patch = .ok sets ∧
        update b info d id patch tbl =
          (assigned b info id sets tbl,updateAnswer b info d id sets tbl) := by
  rw [update]
  split_ifs with hm
  · exact .inl ⟨_,rfl⟩
  cases hs : patchSets b info d patch with
  | error e => exact .inl ⟨e,rfl⟩
  | ok sets =>
    simp only [query]
    cases he : b.exec (.update sets [eqCond info.primaryKey (b.text id)]) tbl with
    | none => exact .inl ⟨_,rfl⟩
    | some r =>
      obtain ⟨rfl,-⟩ := exec_plain he (update_plain h (patchSets_plain h hs hp))
      refine .inr ⟨sets,rfl,?_⟩
      cases d with
      | mysql => simp only [Engine.meaning, satisfies_key, get_eq h, updateAnswer, assigned]
      | postgres | turso => simp only [Engine.meaning, satisfies_key, updateAnswer, assigned]

lemma update_other (hk : KeepsKey b info d id patch tbl)
    (ho : ∀ r ∈ tbl, ¬ (denotes b info id r ∧ denotes b info id' r)) :
    lookup b info d id' (update b info d id patch tbl).1 = lookup b info d id' tbl := by
  rcases @update_cases _ _ b info d h id patch tbl hk.plain with ⟨e,he⟩ | ⟨sets,hs,he⟩
  · rw [he]
  · rw [he]
    exact lookup_congr h id' (filter_assigned_other hk hs ho)

omit h in
lemma oneRow_error {rows : List (Row V)} (hl : rows.length ≤ 1) {e : DbError}
    (he : oneRow d rows = .error e) : rows = [] := by
  match rows, hl with
  | [], _ => rfl
  | [r], _ => cases d <;> simp [oneRow] at he

omit h in
lemma filter_assigned_self {id : String} (hk : KeepsKey b info d id patch tbl)
    {sets : List (String × A)} (hs : patchSets b info d patch = .ok sets)
    (hn : (assigned b info id sets tbl).filter (denotes b info id) = []) :
    tbl.filter (denotes b info id) = [] := by
  rw [filter_eq_nil_iff] at hn ⊢
  intro r hr hd
  refine hn (b.assign sets r) (mem_map.mpr ⟨r,hr,by rw [if_pos hd]⟩) ?_
  rw [denotes_assigned hk hs id hr hd, hd]

omit h in
lemma assigned_of_none {id : String} (sets : List (String × A))
    (hn : tbl.filter (denotes b info id) = []) : assigned b info id sets tbl = tbl := by
  rw [filter_eq_nil_iff] at hn
  refine (map_congr_left fun r hr => ?_).trans (map_id tbl)
  rw [if_neg (hn r hr), id_eq]

lemma update_error {id : String} {patch : GoMap A} {tbl : Table V}
    (hk : KeepsKey b info d id patch tbl) (hon : (tbl.filter (denotes b info id)).length ≤ 1)
    {e : DbError} (her : (update b info d id patch tbl).2 = .error e) :
    lookup b info d id (update b info d id patch tbl).1 = lookup b info d id tbl := by
  rcases @update_cases _ _ b info d h id patch tbl hk.plain with ⟨e,he⟩ | ⟨sets,hs,he⟩
  · rw [he]
  rw [he] at her ⊢
  have hi : oneRow d ((tbl.filter (denotes b info id)).map (b.assign sets)) = .error e →
      lookup b info d id (assigned b info id sets tbl) = lookup b info d id tbl := by
    intro ho
    have hn := oneRow_error (by simpa using hon) ho
    rw [assigned_of_none sets (map_eq_nil_iff.mp hn)]
  cases d with
  | postgres | turso => exact hi her
  | mysql =>
    -- the row is read again: nothing is found only if nothing was there before
    have he' : lookup b info .mysql id (assigned b info id sets tbl) = .error e := her
    rw [lookup] at he'
    split_ifs at he' with hf
    · rw [lookup, if_pos hf, lookup, h.refused id tbl (assigned b info id sets tbl), if_pos hf]
    · have hl : ((assigned b info id sets tbl).filter (denotes b info id)).length ≤ 1 := by
        by_contra hl
        match hro : (assigned b info id sets tbl).filter (denotes b info id) with
        | [] => simp [hro] at hl
        | [r] => simp [hro] at hl
        | r::r'::rs => simp [hro, oneRow] at he'
      have hn := filter_assigned_self hk hs (oneRow_error hl he')
      rw [assigned_of_none sets hn]

lemma delete_cases (id : String) (tbl : Table V) :
    (∃ e, delete b info id tbl = (tbl,.error e)) ∨
      delete b info id tbl = (tbl.filter fun r => !denotes b info id r,.ok ()) := by
  rw [Tables.delete, remove, query]
  cases he : b.exec (.delete [eqCond info.primaryKey (b.text id)]) tbl with
  | none => exact .inl ⟨_,rfl⟩
  | some r =>
    obtain ⟨rfl,-⟩ := exec_plain he (fun x hx => by
      simp only [Stmt.idents, map_cons, map_nil, mem_singleton] at hx
      rw [hx]
      exact plain_of_known h.known)
    simp only [Engine.meaning, satisfies_key]
    split_ifs with hz
    · rw [length_eq_zero_iff] at hz
      refine .inl ⟨.notFound,?_⟩
      rw [filter_eq_nil_iff] at hz
      rw [filter_eq_self.mpr fun r hr => by simpa using hz r hr]
    · exact .inr rfl

lemma delete_other
    (ho : ∀ r ∈ tbl, ¬ (denotes b info id r ∧ denotes b info id' r)) :
    lookup b info d id' (delete b info id tbl).1 = lookup b info d id' tbl := by
  rcases delete_cases h id tbl with ⟨e,he⟩ | he
  · rw [he]
  · rw [he]
    refine lookup_congr h id' ?_
    rw [filter_filter]
    refine filter_congr fun r hr => ?_
    cases hd' : denotes b info id' r with
    | false => simp
    | true => simpa [hd'] using ho r hr

end SdkApi.KeyedTable
