import Mathlib.Order.WellFounded
import SdkApi.BoundedCalls
import SdkApi.Tables

/-!
# Schemas of registered models

The schema of a model has a property for each of its fields, built from the Go
type of the field. Types form a graph that may have cycles. A struct type of a
registered model becomes a reference, and its own schema is put into the
components; it is entered there after it has been built, so the table does not
stop a descent that comes back to a model that is still being built.
-/

namespace SdkApi.OpenapiSchemas
open GoStrings BoundedCalls AssocLists List Option
open Tables (GoMap)

/-- `reflect.Kind` with what the builder reads of a type. -/
inductive GoKind (τ : Type) where
  | int (uint8 : Bool)
  | float
  | string
  | bool
  | pointer (elem : τ)
  | slice (elem : τ)
  | map (elem : τ)
  | struct (name : String) (time : Bool)
  | other

/-- A field of a registered model; `json` is its tag. -/
structure ModelField (τ : Type) where
  column : String
  json : String := ""
  skip : Bool := false
  type : τ

structure Program (τ : Type) where
  kind : τ → GoKind τ
  models : String → Option (List (ModelField τ))

inductive Schema where
  | ref (name : String)
  | inline (type format : String)
  | array (items : Schema)
  | map (values : Schema)
  | object (properties : List (String × Schema))
  deriving Repr

/-- `components.schemas` -/
abbrev Components := GoMap Schema

inductive Emits : Schema → String → Prop where
  | ref (name : String) : Emits (.ref name) name
  | array {s : Schema} {name : String} (h : Emits s name) : Emits (.array s) name
  | map {s : Schema} {name : String} (h : Emits s name) : Emits (.map s) name
  | object {props : List (String × Schema)} {p : String × Schema} {name : String}
      (hp : p ∈ props) (h : Emits p.2 name) : Emits (.object props) name

def jsonName {τ : Type} (f : ModelField τ) : String :=
  let name := (cut f.json ',').1
  if f.json ≠ "" ∧ name ≠ "" ∧ name ≠ "-" then name else f.column

section

variable {τ : Type} (P : Program τ) (go : τ × Components → Option (Schema × Components))

/-- The loop of `buildSchema`. -/
def buildFields : List (ModelField τ) → GoMap Schema → Components →
    Option (GoMap Schema × Components)
  | [], props, c => some (props,c)
  | f::fs, props, c =>
    if f.skip then buildFields fs props c
    else (go (f.type,c)).bind fun r => buildFields fs (Tables.set props (jsonName f) r.1) r.2

def buildSchema (fields : List (ModelField τ)) (c : Components) : Option (Schema × Components) :=
  (buildFields go fields [] c).map fun r => (.object r.1,r.2)

/-- No reference for a name that is not registered. -/
def registerModelSchema (name : String) (c : Components) : Option (Option Schema × Components) :=
  match P.models name with
  | none => some (none,c)
  | some fields =>
    if (c.lookup name).isSome then some (some (.ref name),c)
    else (buildSchema go fields c).map fun r => (some (.ref name),Tables.set r.2 name r.1)

def deref (t : τ) : τ :=
  match P.kind t with
  | .pointer elem => elem
  | _ => t

def isByte (t : τ) : Bool :=
  match P.kind t with
  | .int uint8 => uint8
  | _ => false

/-- The body of `fieldToSchemaRef`. -/
def schemaStep (tc : τ × Components) : Option (Schema × Components) :=
  match P.kind (deref P tc.1) with
  | .int _ => some (.inline "integer" "",tc.2)
  | .float => some (.inline "number" "",tc.2)
  | .string => some (.inline "string" "",tc.2)
  | .bool => some (.inline "boolean" "",tc.2)
  | .slice elem =>
    if isByte P elem then some (.inline "string" "byte",tc.2)
    else (go (elem,tc.2)).map fun r => (.array r.1,r.2)
  | .map elem => (go (elem,tc.2)).map fun r => (.map r.1,r.2)
  | .struct name time =>
    if time then some (.inline "string" "date-time",tc.2)
    else (registerModelSchema P go name tc.2).map fun r => (r.1.getD (.inline "object" ""),r.2)
  | .pointer _ => some (.inline "string" "",tc.2)
  | .other => some (.inline "string" "",tc.2)

def fieldToSchemaRef (n : ℕ) : τ × Components → Option (Schema × Components) :=
  bounded (schemaStep P) n

/-- The types of the fields that `buildSchema` descends into. -/
def fieldTypes (name : String) : List τ :=
  (((P.models name).getD []).filter fun f => !f.skip).map ModelField.type

/-- The types that `fieldToSchemaRef` descends into. -/
def callees (t : τ) : List τ :=
  match P.kind (deref P t) with
  | .slice elem => if isByte P elem then [] else [elem]
  | .map elem => [elem]
  | .struct name time => if time then [] else fieldTypes P name
  | _ => []

/-- There is no infinite descent from the type. -/
def Grounded (t : τ) : Prop := Acc (fun callee caller => callee ∈ callees P caller) t

def GroundedModel (name : String) : Prop := ∀ t ∈ fieldTypes P name, Grounded P t

def Built (c : Components) : Prop := ∀ name, (c.lookup name).isSome → GroundedModel P name

lemma grounded_iff (t : τ) : Grounded P t ↔ ∀ u ∈ callees P t, Grounded P u := acc_def

def Resolved (s : Schema) (c : Components) : Prop := ∀ name, Emits s name → (c.lookup name).isSome

def Closed (c : Components) : Prop := ∀ p ∈ c, Resolved p.2 c

lemma lookup_set_isSome (c : Components) (name : String) (s : Schema) (other : String) :
    ((Tables.set c name s).lookup other).isSome ↔ other = name ∨ (c.lookup other).isSome := by
  rw [Tables.lookup_set]
  by_cases h : other = name <;> simp [h]

variable {τ : Type} (P : Program τ)

structure Advances (c c' : Components) : Prop where
  names : ∀ name, (c.lookup name).isSome → (c'.lookup name).isSome
  closed : Closed c → Closed c'
  built : Built P c → Built P c'

variable {P}

lemma Advances.refl (c : Components) : Advances P c c := ⟨fun _ => id,id,id⟩

lemma Advances.trans {c c' c'' : Components} (h : Advances P c c') (h' : Advances P c' c'') :
    Advances P c c'' :=
  ⟨fun name => h'.names name ∘ h.names name,h'.closed ∘ h.closed,h'.built ∘ h.built⟩

variable {s : Schema} {c : Components}

lemma Resolved.later {c c' : Components} (h : Resolved s c)
    (hn : ∀ name, (c.lookup name).isSome → (c'.lookup name).isSome) : Resolved s c' :=
  fun name hs => hn name (h name hs)

lemma resolved_inline (type format : String) (c : Components) :
    Resolved (.inline type format) c := fun _ h => nomatch h

lemma resolved_array (h : Resolved s c) : Resolved (.array s) c := by
  rintro name ⟨⟩
  exact h name ‹_›

lemma resolved_map (h : Resolved s c) : Resolved (.map s) c := by
  rintro name ⟨⟩
  exact h name ‹_›

lemma resolved_object {props : List (String × Schema)}
    (h : ∀ p ∈ props, Resolved p.2 c) : Resolved (.object props) c := by
  rintro name ⟨⟩
  exact h _ ‹_› name ‹_›

lemma Advances.set {c c' : Components} {name : String} (h : Advances P c c') (hs : Resolved s c')
    (hm : Built P c → GroundedModel P name) : Advances P c (Tables.set c' name s) := by
  have hn : ∀ other, (c'.lookup other).isSome → ((Tables.set c' name s).lookup other).isSome :=
    fun other ho => (lookup_set_isSome c' name s other).mpr (.inr ho)
  refine ⟨fun other ho => hn other (h.names other ho),fun hl p hp => ?_,
    fun hb other ho => ?_⟩
  · rcases mem_cons.mp hp with rfl | hp
    · exact hs.later hn
    · exact (h.closed hl p (mem_filter.mp hp).1).later hn
  · rcases (lookup_set_isSome c' name s other).mp ho with rfl | hol
    · exact hm hb
    · exact h.built hb other hol

def SoundCalls (P : Program τ) (go : τ × Components → Option (Schema × Components)) : Prop :=
  ∀ t c s c', go (t,c) = some (s,c') → Advances P c c' ∧ Resolved s c' ∧ (Built P c → Grounded P t)

variable {go : τ × Components → Option (Schema × Components)}

section

variable (hgo : SoundCalls P go)
include hgo

variable {c c' : Components} {fields : List (ModelField τ)} {name : String}

lemma sound_buildFields {props props' : GoMap Schema}
    (h : buildFields go fields props c = some (props',c')) :
    Advances P c c' ∧
      ((∀ p ∈ props, Resolved p.2 c) → ∀ p ∈ props', Resolved p.2 c') ∧
      (Built P c → ∀ f ∈ fields, f.skip = false → Grounded P f.type) := by
  induction fields generalizing props c with
  | nil =>
    cases h
    exact ⟨Advances.refl _,id,nofun⟩
  | cons f fields ih =>
    rw [buildFields] at h
    split_ifs at h with hk
    · obtain ⟨had,ho,hi⟩ := ih h
      refine ⟨had,ho,fun hb => forall_mem_cons.mpr ⟨fun hno => ?_,hi hb⟩⟩
      rw [hk] at hno
      cases hno
    · obtain ⟨⟨s,c1⟩,hs,he⟩ := bind_eq_some_iff.mp h
      obtain ⟨ha,hre,hg⟩ := hgo _ _ _ _ hs
      obtain ⟨had,ho,hi⟩ := ih he
      refine ⟨ha.trans had,fun hl => ho fun p hp => ?_,fun hb =>
        forall_mem_cons.mpr ⟨fun _ => hg hb,hi (ha.built hb)⟩⟩
      rcases mem_cons.mp hp with rfl | hp
      · exact hre
      · exact (hl p (mem_filter.mp hp).1).later ha.names

lemma sound_buildSchema (hm : P.models name = some fields) {s : Schema}
    (h : buildSchema go fields c = some (s,c')) :
    Advances P c c' ∧ Resolved s c' ∧ (Built P c → GroundedModel P name) := by
  obtain ⟨⟨props,c1⟩,ho,hq⟩ := map_eq_some_iff.mp h
  cases hq
  obtain ⟨ha,he,hi⟩ := sound_buildFields hgo ho
  refine ⟨ha,resolved_object (he nofun),fun hb t ht => ?_⟩
  obtain ⟨f,hf,rfl⟩ := List.mem_map.mp ht
  rw [hm, getD_some, mem_filter] at hf
  exact hi hb f hf.1 (by simpa using hf.2)

lemma sound_registerModelSchema
    {r : Option Schema} (h : registerModelSchema P go name c = some (r,c')) :
    Advances P c c' ∧ (∀ s, r = some s → Resolved s c') ∧ (Built P c → GroundedModel P name) := by
  have he : ∀ c : Components, (c.lookup name).isSome → Resolved (.ref name) c := by
    rintro c hc _ ⟨⟩
    exact hc
  unfold registerModelSchema at h
  split at h
  · rename_i hn
    cases h
    refine ⟨Advances.refl c,nofun,fun _ t ht => ?_⟩
    simp [fieldTypes, hn] at ht
  · rename_i fields hi
    split_ifs at h with ho
    · cases h
      refine ⟨Advances.refl c,fun s hs => ?_,fun hb => hb name ho⟩
      cases hs
      exact he c ho
    · obtain ⟨⟨s,c1⟩,hs,hq⟩ := map_eq_some_iff.mp h
      cases hq
      obtain ⟨ha,hre,hg⟩ := sound_buildSchema hgo hi hs
      refine ⟨ha.set hre hg,fun s' hs' => ?_,hg⟩
      cases hs'
      exact he _ ((lookup_set_isSome c1 name s name).mpr (.inl rfl))

lemma sound_schemaStep : SoundCalls P (schemaStep P go) := by
  intro t c s c' h
  -- A type without callees: the table stays and the schema is inline.
  have hl : ∀ {type format : String}, some (Schema.inline type format,c) = some (s,c') →
      callees P t = [] → Advances P c c' ∧ Resolved s c' ∧ (Built P c → Grounded P t) := by
    rintro type format ⟨⟩ hn
    exact ⟨Advances.refl c,resolved_inline type format c,fun _ =>
      (grounded_iff P t).mpr (hn ▸ nofun)⟩
  unfold schemaStep at h
  split at h
  case h_5 elem hk =>
    split_ifs at h with hy
    · exact hl h (by simp only [callees, hk, if_pos hy])
    · obtain ⟨⟨s1,c1⟩,hs,hq⟩ := map_eq_some_iff.mp h
      cases hq
      obtain ⟨ha,he,hg⟩ := hgo _ _ _ _ hs
      refine ⟨ha,resolved_array he,fun hb => (grounded_iff P t).mpr ?_⟩
      simpa only [callees, hk, if_neg hy, forall_mem_singleton] using hg hb
  case h_6 elem hk =>
    obtain ⟨⟨s1,c1⟩,hs,hq⟩ := map_eq_some_iff.mp h
    cases hq
    obtain ⟨ha,he,hg⟩ := hgo _ _ _ _ hs
    refine ⟨ha,resolved_map he,fun hb => (grounded_iff P t).mpr ?_⟩
    simpa only [callees, hk, forall_mem_singleton] using hg hb
  case h_7 name time hk =>
    split_ifs at h with ht
    · exact hl h (by simp only [callees, hk, if_pos ht])
    · obtain ⟨⟨r,c1⟩,hr,hq⟩ := map_eq_some_iff.mp h
      cases hq
      obtain ⟨ha,he,hg⟩ := sound_registerModelSchema hgo hr
      refine ⟨ha,?_,fun hb => (grounded_iff P t).mpr ?_⟩
      · rcases r with _ | s
        · exact resolved_inline "object" "" _
        · exact he s rfl
      · simp only [callees, hk, if_neg ht]
        exact hg hb
  all_goals
    rename_i hk
    exact hl h (by simp only [callees, hk])

end

lemma sound_fieldToSchemaRef (n : ℕ) : SoundCalls P (fieldToSchemaRef P n) := by
  induction n with
  | zero => exact fun t c s c' h => nomatch h
  | succ n ih => exact sound_schemaStep ih

end

section

variable {τ : Type} {P : Program τ} {fields : List (ModelField τ)} {name : String} {t : τ}

def Returns (P : Program τ) (t : τ) : Prop :=
  ∀ c, ∃ r, Settles (fun n => fieldToSchemaRef P n (t,c)) r

lemma buildFields_returns (h : ∀ f ∈ fields, f.skip = false → Returns P f.type)
    (props : GoMap Schema) (c : Components) :
    ∃ r, Settles (fun n => buildFields (fieldToSchemaRef P n) fields props c) r := by
  induction fields generalizing props c with
  | nil => exact ⟨_,settles_some⟩
  | cons f fields ih =>
    have he := ih fun g hg => h g (.tail f hg)
    by_cases hk : f.skip
    · simp only [buildFields, if_pos hk]
      exact he props c
    · simp only [buildFields, if_neg hk]
      obtain ⟨⟨s,c1⟩,hs⟩ := h f (.head _) (Bool.not_eq_true _ ▸ hk) c
      obtain ⟨r,hr⟩ := he (Tables.set props (jsonName f) s) c1
      exact ⟨r,hs.bind hr⟩

lemma buildSchema_returns
    (hm : P.models name = some fields) (h : ∀ t ∈ fieldTypes P name, Returns P t)
    (c : Components) : ∃ r, Settles (fun n => buildSchema (fieldToSchemaRef P n) fields c) r := by
  have hi : ∀ f ∈ fields, f.skip = false → Returns P f.type := by
    intro f hf hk
    refine h f.type (List.mem_map_of_mem ?_)
    rw [hm, getD_some, mem_filter, hk]
    exact ⟨hf,rfl⟩
  obtain ⟨r,hr⟩ := buildFields_returns hi [] c
  exact ⟨_,hr.map _⟩

lemma registerModelSchema_returns (h : ∀ t ∈ fieldTypes P name, Returns P t) (c : Components) :
    ∃ r, Settles (fun n => registerModelSchema P (fieldToSchemaRef P n) name c) r := by
  unfold registerModelSchema
  rcases hm : P.models name with _ | fields
  · exact ⟨_,settles_some⟩
  · by_cases ho : (c.lookup name).isSome
    · simp only [if_pos ho]
      exact ⟨_,settles_some⟩
    · simp only [if_neg ho]
      obtain ⟨r,hr⟩ := buildSchema_returns hm h c
      exact ⟨_,hr.map _⟩

lemma returns_of_callees (h : ∀ u ∈ callees P t, Returns P u) : Returns P t := by
  intro c
  suffices hstep : ∃ r, Settles (fun n => schemaStep P (fieldToSchemaRef P n) (t,c)) r by
    obtain ⟨r,hr⟩ := hstep
    exact ⟨r,settles_bounded hr⟩
  unfold schemaStep
  unfold callees at h
  split at h
  case h_1 elem hk =>
    simp only [hk]
    split_ifs at h ⊢
    · exact ⟨_,settles_some⟩
    · obtain ⟨r,hr⟩ := h elem (.head _) c
      exact ⟨_,hr.map _⟩
  case h_2 elem hk =>
    simp only [hk]
    obtain ⟨r,hr⟩ := h elem (.head _) c
    exact ⟨_,hr.map _⟩
  case h_3 name time hk =>
    simp only [hk]
    split_ifs at h ⊢
    · exact ⟨_,settles_some⟩
    · obtain ⟨r,hr⟩ := registerModelSchema_returns h c
      exact ⟨_,hr.map _⟩
  case h_4 hl hm ht =>
    dsimp only
    split
    case h_5 hk => exact absurd hk (hl _)
    case h_6 hk => exact absurd hk (hm _)
    case h_7 hk => exact absurd hk (ht _ _)
    all_goals exact ⟨_,settles_some⟩

lemma returns_of_grounded (h : Grounded P t) : Returns P t := by
  induction h with
  | intro t _ ih => exact returns_of_callees ih

lemma not_grounded_of_cycle {cycle : List τ} (h : ∀ t ∈ cycle, ∃ u ∈ callees P t, u ∈ cycle)
    (ht : t ∈ cycle) : ¬Grounded P t := by
  intro hg
  induction hg with
  | intro t _ ih =>
    obtain ⟨u,hu,hy⟩ := h t ht
    exact ih u hu hy

end

end SdkApi.OpenapiSchemas
