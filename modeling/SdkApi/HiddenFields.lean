import SdkApi.GraphqlResolvers
import SdkApi.OpenapiSchemas

/-!
# Fields that JSON does not show

`encoding/json` leaves out a field with the tag `-`. The selection of fields
and the schema builder parse the tags on their own: the former takes the Go
name of such a field, the latter its column.
-/

namespace SdkApi.HiddenFields
open GoStrings Tables OpenapiSchemas List
open GraphqlResolvers (jsonKey)

variable {A τ : Type}

def hidden (f : FieldInfo) : Bool := f.jsonTag = "-"

/-- A row as `encoding/json` writes it, without the values that it omits. -/
def encode (omits : FieldInfo → A → Bool) (fields : List FieldInfo) (item : Entity A) : GoMap A :=
  (fields.filter fun f => !hidden f && !omits f (item f.goName)).map fun f =>
    (jsonKey f,item f.goName)

def filterName (f : FieldInfo) : String :=
  if f.jsonTag = "" ∨ f.jsonTag = "-" then f.goName else (cut f.jsonTag ',').1

def selectFields (sel : List String) (item : Entity A) (fields : List FieldInfo) (m : GoMap A) :
    GoMap A :=
  fields.foldl (fun m f =>
    if filterName f ∈ sel then set m (filterName f) (item f.goName) else m) m

def filterFields (omits : FieldInfo → A → Bool) (fields : List FieldInfo) (sel : List String)
    (item : Entity A) : GoMap A :=
  if sel = [] then encode omits fields item else selectFields sel item fields []

/-- A row in a list. MySQL and Turso leave the selection aside. -/
def listedRow (d : Driver) (omits : FieldInfo → A → Bool) (fields : List FieldInfo)
    (sel : List String) (item : Entity A) : GoMap A :=
  match d with
  | .postgres => filterFields omits fields sel item
  | _ => encode omits fields item

def toModel (type : FieldInfo → τ) (f : FieldInfo) : ModelField τ :=
  ⟨f.column,f.jsonTag,f.skip,type f⟩

variable {omits : FieldInfo → A → Bool} {fields : List FieldInfo} {sel : List String}
  {item : Entity A} {name : String} {v : A} {m : GoMap A}

lemma mem_encode : (name, v) ∈ encode omits fields item ↔ ∃ f ∈ fields, hidden f = false ∧
    omits f (item f.goName) = false ∧ jsonKey f = name ∧ item f.goName = v := by
  simp [encode, and_assoc]

lemma mem_selectFields (h : (name,v) ∈ selectFields sel item fields m) :
    (name,v) ∈ m ∨ ∃ f ∈ fields, filterName f = name ∧ name ∈ sel ∧ item f.goName = v := by
  induction fields generalizing m with
  | nil => exact .inl h
  | cons f fields ih =>
    rw [selectFields, foldl_cons] at h
    rcases ih h with hm | ⟨g,hg,hname⟩
    · split_ifs at hm with hl
      · rcases mem_set hm with he | hm
        · cases he
          exact .inr ⟨f,by simp,rfl,hl,rfl⟩
        · exact .inl hm
      · exact .inl hm
    · exact .inr ⟨g,by simp [hg],hname⟩

lemma selectFields_key (he : name ∈ sel)
    (h : (m.lookup name).isSome ∨ ∃ f ∈ fields, filterName f = name) :
    ((selectFields sel item fields m).lookup name).isSome := by
  induction fields generalizing m with
  | nil => simpa [selectFields] using h
  | cons f fields ih =>
    rw [selectFields, foldl_cons]
    apply ih
    split_ifs with hf
    · rw [lookup_set]
      grind
    · grind

lemma mem_buildFields {go : τ × Components → Option (Schema × Components)}
    {fs : List (ModelField τ)} {props props' : GoMap Schema} {c c' : Components}
    (h : buildFields go fs props c = some (props',c')) :
    ∀ p ∈ props', p ∈ props ∨ ∃ f ∈ fs, f.skip = false ∧ jsonName f = p.1 := by
  induction fs generalizing props c with
  | nil =>
    cases h
    exact fun p hp => .inl hp
  | cons f fs ih =>
    rw [buildFields] at h
    intro p hp
    split_ifs at h with hk
    · rcases ih h p hp with hp | ⟨g,hg,hname⟩
      · exact .inl hp
      · exact .inr ⟨g,by simp [hg],hname⟩
    · obtain ⟨r,-,he⟩ := Option.bind_eq_some_iff.mp h
      rcases ih he p hp with hp | ⟨g,hg,hname⟩
      · rcases mem_set hp with rfl | hp
        · exact .inr ⟨f,by simp,by simpa using hk,rfl⟩
        · exact .inl hp
      · exact .inr ⟨g,by simp [hg],hname⟩

lemma buildFields_key {go : τ × Components → Option (Schema × Components)}
    {fs : List (ModelField τ)} {props props' : GoMap Schema} {c c' : Components}
    (h : buildFields go fs props c = some (props', c')) {name : String}
    (hn : (props.lookup name).isSome ∨ ∃ f ∈ fs, f.skip = false ∧ jsonName f = name) :
    (props'.lookup name).isSome := by
  induction fs generalizing props c with
  | nil =>
    cases h
    simpa using hn
  | cons f fs ih =>
    rw [buildFields] at h
    split_ifs at h with hk
    · exact ih h (by grind)
    · obtain ⟨r, -, he⟩ := Option.bind_eq_some_iff.mp h
      refine ih he ?_
      rw [lookup_set]
      grind

/-- A row shows no hidden field, and with a selection exactly the selected others. -/
structure Shown (fields : List FieldInfo) (sel : List String) (item : Entity A) (row : GoMap A) :
    Prop where
  visible : ∀ name v, (name, v) ∈ row →
    ∃ f ∈ fields, hidden f = false ∧ jsonKey f = name ∧ item f.goName = v
  selected : sel ≠ [] → ∀ name, (row.lookup name).isSome ↔
    name ∈ sel ∧ ∃ f ∈ fields, hidden f = false ∧ jsonKey f = name

/-- What is selected is visible and goes by its JSON name. -/
structure Selectable (fields : List FieldInfo) (sel : List String) : Prop where
  named : ∀ f ∈ fields, filterName f ∈ sel → hidden f = false ∧ filterName f = jsonKey f
  found : ∀ f ∈ fields, hidden f = false → jsonKey f ∈ sel → ∃ g ∈ fields, filterName g = jsonKey f

lemma isSome_lookup {row : GoMap A} : (row.lookup name).isSome ↔ ∃ v, (name, v) ∈ row := by
  simp

lemma shown_encode_iff
    (hjson : ∀ f ∈ fields, ∀ g ∈ fields, jsonKey f = jsonKey g → f = g) :
    Shown fields sel item (encode omits fields item) ↔ sel = [] ∨
      ∀ f ∈ fields, hidden f = false → (omits f (item f.goName) = false ↔ jsonKey f ∈ sel) := by
  have hk : ∀ {name}, ((encode omits fields item).lookup name).isSome ↔ ∃ f ∈ fields,
      hidden f = false ∧ omits f (item f.goName) = false ∧ jsonKey f = name := by
    simp [mem_encode]
  constructor
  · intro h
    by_cases hs : sel = []
    · exact .inl hs
    refine .inr fun f hf hh => ⟨fun ho => ?_, fun hin => ?_⟩
    · exact ((h.selected hs _).mp (hk.mpr ⟨f, hf, hh, ho, rfl⟩)).1
    · obtain ⟨g, hg, -, ho, he⟩ := hk.mp ((h.selected hs _).mpr ⟨hin, f, hf, hh, rfl⟩)
      rwa [hjson f hf g hg he.symm]
  · intro h
    refine ⟨fun name v hm => ?_, fun hs name => ?_⟩
    · obtain ⟨f, hf, hh, -, he⟩ := mem_encode.mp hm
      exact ⟨f, hf, hh, he⟩
    · have h := h.resolve_left hs
      rw [hk]
      constructor
      · rintro ⟨f, hf, hh, ho, rfl⟩
        exact ⟨(h f hf hh).mp ho, f, hf, hh, rfl⟩
      · rintro ⟨hin, f, hf, hh, rfl⟩
        exact ⟨f, hf, hh, (h f hf hh).mpr hin, rfl⟩

lemma shown_selected_iff {a b : A} (hab : a ≠ b) (hgo : (fields.map (·.goName)).Nodup)
    (hname : (fields.map filterName).Nodup) (hs : sel ≠ []) :
    (∀ item : Entity A, Shown fields sel item (selectFields sel item fields [])) ↔
      Selectable fields sel := by
  constructor
  · intro h
    have hm : ∀ (item : Entity A) name, name ∈ sel → (∃ f ∈ fields, filterName f = name) →
        ∃ v, (name, v) ∈ selectFields sel item fields [] := fun item name hin hf =>
      isSome_lookup.mp (selectFields_key hin (.inr hf))
    refine ⟨fun f hf hin => ?_, fun f hf hh hin => ?_⟩
    · -- a row in which no other field has the value of this one
      obtain ⟨v, hv⟩ := hm (fun n => if n = f.goName then a else b) _ hin ⟨f, hf, rfl⟩
      obtain ⟨g, hg, hh, hk, he⟩ := (h _).visible _ _ hv
      rcases mem_selectFields hv with hn | ⟨f', hf', hsame, -, hv'⟩
      · cases hn
      obtain rfl := inj_on_of_nodup_map hname hf' hf hsame
      have hgf : g.goName = f'.goName := by
        by_contra hne
        simp [hne] at he hv'
        exact hab (hv'.trans he.symm)
      obtain rfl := inj_on_of_nodup_map hgo hg hf hgf
      exact ⟨hh, hk.symm⟩
    · obtain ⟨v, hv⟩ := isSome_lookup.mp (((h fun _ => a).selected hs _).mpr ⟨hin, f, hf, hh, rfl⟩)
      rcases mem_selectFields hv with hn | ⟨g, hg, hsame, -⟩
      · cases hn
      · exact ⟨g, hg, hsame⟩
  · intro h item
    have he : ∀ name v, (name, v) ∈ selectFields sel item fields [] →
        name ∈ sel ∧ ∃ f ∈ fields, hidden f = false ∧ jsonKey f = name ∧ item f.goName = v := by
      intro name v hm
      rcases mem_selectFields hm with hn | ⟨f, hf, rfl, hin, hv⟩
      · cases hn
      · obtain ⟨hh, hk⟩ := h.named f hf hin
        exact ⟨hin, f, hf, hh, hk.symm, hv⟩
    refine ⟨fun name v hm => (he name v hm).2, fun _ name => ⟨fun hl => ?_, ?_⟩⟩
    · obtain ⟨v, hv⟩ := isSome_lookup.mp hl
      obtain ⟨hin, f, hf, hh, hk, -⟩ := he name v hv
      exact ⟨hin, f, hf, hh, hk⟩
    · rintro ⟨hin, f, hf, hh, rfl⟩
      exact selectFields_key hin (.inr (h.found f hf hh hin))

def idField : FieldInfo := { column := "id", goName := "ID", jsonTag := "id" }

def secretField : FieldInfo :=
  { column := "password_hash", goName := "PasswordHash", jsonTag := "-" }

def stringSchema (tc : Unit × Components) : Option (Schema × Components) :=
  some (.inline "string" "",tc.2)

def skippedField : FieldInfo := { secretField with skip := true }

end SdkApi.HiddenFields
