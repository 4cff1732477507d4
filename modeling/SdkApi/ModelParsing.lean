import SdkApi.GoStrings

/-!
# Models read from struct tags

The columns of a table come from the tags of the exported fields. A tag is
split at the commas outside of brackets; an empty tag has no parts, and the
parser asks for the first one.
-/

namespace SdkApi.ModelParsing
open GoStrings List Option

/-- The tag is the value of the key `db`, empty if the field has none. -/
structure StructField where
  name : String
  exported : Bool := true
  tag : String := ""

structure FieldInfo where
  column : String := ""
  goName : String
  primary : Bool := false
  auto : Bool := false
  required : Bool := false
  index : Bool := false
  unique : Bool := false
  skip : Bool := false
  default : String := ""
  typeOverride : String := ""
  fk : String := ""
  deriving DecidableEq

structure TableInfo where
  fields : List FieldInfo := []
  primaryKey : String := ""
  deriving DecidableEq

/-- The loop of `splitTag`: how many brackets are open, and the part so far. -/
def splitFrom (depth : ℤ) (part : List Char) : List Char → List String
  | [] => if part = [] then [] else [String.ofList part]
  | c::cs =>
    if c ∈ ['(','[','{'] then splitFrom (depth+1) (part++[c]) cs
    else if c ∈ [')',']','}'] then splitFrom (depth-1) (part++[c]) cs
    else if c = ',' ∧ depth = 0 then String.ofList part::splitFrom depth [] cs
    else splitFrom depth (part++[c]) cs

def splitTag (tag : String) : List String := splitFrom 0 [] tag.toList

def isUpper (r : Char) : Bool := 'A' ≤ r && r ≤ 'Z'

def isLower (r : Char) : Bool := 'a' ≤ r && r ≤ 'z'

/-- The loop of `toSnake`, with the character before. -/
def snakeFrom : Option Char → List Char → List Char
  | _, [] => []
  | prev, r::rs =>
    if isUpper r then
      (if prev.any isLower || (prev.isSome && rs.head?.any isLower) then ['_'] else [])++
        Char.ofNat (r.toNat+32)::snakeFrom (some r) rs
    else r::snakeFrom (some r) rs

def toSnake (s : String) : String := String.ofList (snakeFrom none s.toList)

def parseTagPart (fi : FieldInfo) (part : String) : FieldInfo :=
  let p := trimSpace part
  if p = "primary" then { fi with primary := true }
  else if p = "auto" then { fi with auto := true }
  else if p = "required" then { fi with required := true }
  else if p = "index" then { fi with index := true }
  else if p = "unique" then { fi with unique := true }
  else if p = "-" then { fi with skip := true }
  else if hasPrefix p "default=" then { fi with default := trimPrefix p "default=" }
  else if hasPrefix p "type=" then { fi with typeOverride := trimPrefix p "type=" }
  else if hasPrefix p "fk=" then { fi with fk := trimPrefix p "fk=" }
  else fi

/-- One exported field; `none` is the panic of `parts[0]`. -/
def parseField (f : StructField) : Option FieldInfo :=
  match splitTag f.tag with
  | [] => none
  | first::parts =>
    let col := trimSpace first
    if col = "-" then some { goName := f.name, skip := true }
    else some (parts.foldl parseTagPart
      { goName := f.name, column := if col = "" then toSnake f.name else col })

def parseFrom (info : TableInfo) : List StructField → Option TableInfo
  | [] => some info
  | f::fs =>
    if f.exported then
      (parseField f).bind fun fi => parseFrom
        ⟨info.fields++[fi],if fi.primary then fi.column else info.primaryKey⟩ fs
    else parseFrom info fs

def parseType (fields : List StructField) : Option TableInfo := parseFrom {} fields

inductive Outcome where
  | panic
  | noPrimaryKey
  | ok (info : TableInfo)
  deriving DecidableEq

def parseStruct (fields : List StructField) : Outcome :=
  match parseType fields with
  | none => .panic
  | some info => if info.primaryKey = "" then .noPrimaryKey else .ok info

def parseStructReflect (fields : List StructField) : Outcome :=
  match parseType fields with
  | none => .panic
  | some info => .ok info

def namePart (f : StructField) : String := trimSpace ((splitTag f.tag).headD "")

def columnOf (f : StructField) : String :=
  if namePart f = "-" then "" else if namePart f = "" then toSnake f.name else namePart f

def columns (fis : List FieldInfo) : List String := (fis.filter (!·.skip)).map (·.column)

/-- No panic, and the columns are those of the tags and names, each once. -/
def Sound (fields : List StructField) (o : Outcome) : Prop :=
  o ≠ .panic ∧ ∀ info, o = .ok info →
    info.fields.map (fun fi => (fi.goName,fi.column)) =
      (fields.filter (·.exported)).map (fun f => (f.name,columnOf f)) ∧
    (columns info.fields).Nodup

section

variable {fields : List StructField} {info : TableInfo}

lemma splitFrom_eq_nil {depth : ℤ} {part cs : List Char} :
    splitFrom depth part cs = [] ↔ part = [] ∧ cs = [] := by
  induction cs generalizing depth part with
  | nil => simp [splitFrom]
  | cons c cs ih =>
    rw [splitFrom]
    split_ifs <;> simp [ih]

lemma splitTag_eq_nil (tag : String) : splitTag tag = [] ↔ tag = "" := by
  rw [splitTag, splitFrom_eq_nil]
  simp

lemma parseTagPart_names (fi : FieldInfo) (part : String) :
    (parseTagPart fi part).goName = fi.goName ∧ (parseTagPart fi part).column = fi.column := by
  unfold parseTagPart
  dsimp only
  split_ifs <;> exact ⟨rfl,rfl⟩

lemma foldl_parseTagPart (parts : List String) {fi : FieldInfo} :
    (parts.foldl parseTagPart fi).goName = fi.goName ∧
      (parts.foldl parseTagPart fi).column = fi.column := by
  induction parts generalizing fi with
  | nil => exact ⟨rfl,rfl⟩
  | cons p parts ih =>
    obtain ⟨hname,ho⟩ := parseTagPart_names fi p
    rw [foldl_cons, ih.1, ih.2, hname, ho]
    exact ⟨rfl,rfl⟩

lemma parseField_names {f : StructField} {fi : FieldInfo} (h : parseField f = some fi) :
    (fi.goName,fi.column) = (f.name,columnOf f) := by
  unfold parseField at h
  rw [columnOf, namePart]
  split at h
  · cases h
  · rename_i first parts ht
    rw [ht, headD_cons]
    by_cases hk : trimSpace first = "-"
    · rw [if_pos hk] at h
      cases h
      rw [if_pos hk]
    · rw [if_neg hk] at h
      cases h
      rw [(foldl_parseTagPart parts).1, (foldl_parseTagPart parts).2, if_neg hk]

lemma parseField_eq_none (f : StructField) : parseField f = none ↔ f.tag = "" := by
  rw [← splitTag_eq_nil]
  unfold parseField
  split
  · simp_all
  · rename_i ht
    dsimp only
    split_ifs <;> simp [ht]

lemma parseFrom_cases (info : TableInfo) (fields : List StructField) :
    (parseFrom info fields = none ∧ ∃ f ∈ fields, f.exported ∧ f.tag = "") ∨
      ∃ info', parseFrom info fields = some info' ∧
        info'.fields = info.fields++(fields.filter (·.exported)).filterMap parseField ∧
        ∀ f ∈ fields, f.exported → f.tag ≠ "" := by
  induction fields generalizing info with
  | nil => exact .inr ⟨info,rfl,by simp,nofun⟩
  | cons f fs ih =>
    rw [parseFrom]
    by_cases hx : f.exported
    · rw [if_pos hx, filter_cons_of_pos hx]
      cases hi : parseField f with
      | none => exact .inl ⟨rfl,f,by simp,hx,(parseField_eq_none f).mp hi⟩
      | some fi =>
        have ha : f.tag ≠ "" := fun ha => by
          rw [(parseField_eq_none f).mpr ha] at hi
          cases hi
        rw [bind_some, filterMap_cons_some hi]
        rcases ih ⟨info.fields++[fi],if fi.primary then fi.column else info.primaryKey⟩ with
          ⟨hn,g,hg,hb⟩ | ⟨info',ho,he,ht⟩
        · exact .inl ⟨hn,g,by simp [hg],hb⟩
        · refine .inr ⟨info',ho,by simp [he],forall_mem_cons.mpr ⟨fun _ => ha,ht⟩⟩
    · rw [if_neg hx, filter_cons_of_neg hx]
      rcases ih info with ⟨hn,g,hg,hb⟩ | ⟨info',ho,he,ht⟩
      · exact .inl ⟨hn,g,by simp [hg],hb⟩
      · exact .inr ⟨info',ho,he,forall_mem_cons.mpr ⟨fun h => absurd h hx,ht⟩⟩

lemma names_of_tags {fs : List StructField} (h : ∀ f ∈ fs, f.tag ≠ "") :
    (fs.filterMap parseField).map (fun fi => (fi.goName,fi.column)) =
      fs.map fun f => (f.name,columnOf f) := by
  induction fs with
  | nil => rfl
  | cons f fs ih =>
    rw [forall_mem_cons] at h
    obtain ⟨fi,hi⟩ := ne_none_iff_exists'.mp (mt (parseField_eq_none f).mp h.1)
    rw [filterMap_cons_some hi, map_cons, map_cons, ih h.2, parseField_names hi]

end

/-- For every struct type: both functions are sound exactly if every exported field has a tag and
no two fields that are not skipped have one column. -/
theorem parsing_sound_iff (fields : List StructField) :
    Sound fields (parseStruct fields) ∧ Sound fields (parseStructReflect fields) ↔
      (∀ f ∈ fields, f.exported = true → f.tag ≠ "") ∧
        (columns ((fields.filter (·.exported)).filterMap parseField)).Nodup := by
  unfold parseStruct parseStructReflect parseType
  rcases parseFrom_cases {} fields with ⟨he,f,hf,hx,ha⟩ | ⟨info,hin,hi,ht⟩
  · rw [he]
    exact ⟨fun h => absurd rfl h.1.1,fun h => absurd ha (h.1 f hf hx)⟩
  · rw [nil_append] at hi
    have hn : info.fields.map (fun fi => (fi.goName,fi.column)) =
        (fields.filter (·.exported)).map fun f => (f.name,columnOf f) := by
      rw [hi]
      refine names_of_tags fun f hf => ?_
      obtain ⟨hm,hx⟩ := mem_filter.mp hf
      exact ht f hm hx
    rw [hin, ← hi]
    dsimp only
    constructor
    · intro h
      exact ⟨ht,(h.2.2 info rfl).2⟩
    · rintro ⟨-,ho⟩
      constructor
      · split_ifs
        · exact ⟨nofun,nofun⟩
        · refine ⟨nofun,fun info' hi' => ?_⟩
          cases hi'
          exact ⟨hn,ho⟩
      · refine ⟨nofun,fun info' hi' => ?_⟩
        cases hi'
        exact ⟨hn,ho⟩

/-- A field without a tag, and two fields with one column, also by their names. -/
theorem parsing_panics_and_repeats :
    parseStruct [{ name := "ID", tag := "id,primary" },{ name := "Name" }] = .panic ∧
    (∃ info, parseStruct [{ name := "ID", tag := "id,primary" },{ name := "Key", tag := "id" }] =
      .ok info ∧ columns info.fields = ["id","id"]) ∧
    ∃ info, parseStruct [{ name := "UserID", tag := ",primary" },{ name := "UserId", tag := "," }] =
      .ok info ∧ columns info.fields = ["user_id","user_id"] :=
  ⟨by decide,⟨⟨[{ column := "id", goName := "ID", primary := true },
      { column := "id", goName := "Key" }],"id"⟩,by decide⟩,
    ⟨⟨[{ column := "user_id", goName := "UserID", primary := true },
      { column := "user_id", goName := "UserId" }],"user_id"⟩,by decide⟩⟩

section Parts

/-- Balanced brackets after `depth` open ones, and no comma outside of them. -/
def Closed : ℕ → List Char → Prop
  | depth, [] => depth = 0
  | depth, c::cs =>
    if c ∈ ['(','[','{'] then Closed (depth+1) cs
    else if c ∈ [')',']','}'] then depth ≠ 0 ∧ Closed (depth-1) cs
    else ¬(c = ',' ∧ depth = 0) ∧ Closed depth cs

lemma splitFrom_closed {depth : ℕ} {cs : List Char} (h : Closed depth cs) (part rest : List Char) :
    splitFrom depth part (cs++rest) = splitFrom 0 (part++cs) rest := by
  induction cs generalizing depth part with
  | nil =>
    cases h
    simp
  | cons c cs ih =>
    rw [cons_append, splitFrom]
    rw [Closed] at h
    split_ifs at h ⊢ with ho hc hx
    · exact_mod_cast (ih h (part++[c])).trans (by simp)
    · rw [show (depth : ℤ)-1 = (depth-1 : ℕ) by omega, ih h.2 (part++[c])]
      simp
    · exact absurd ⟨hx.1,by exact_mod_cast hx.2⟩ h.1
    · rw [ih h.2 (part++[c])]
      simp

lemma splitFrom_join {parts : List String} (h : ∀ p ∈ parts, p ≠ "" ∧ Closed 0 p.toList) :
    splitTag (",".intercalate parts) = parts := by
  induction parts with
  | nil => rfl
  | cons p parts ih =>
    obtain ⟨⟨hn,hc⟩,ht⟩ := forall_mem_cons.mp h
    have hs := splitFrom_closed hc []
    cases parts with
    | nil => simpa [splitTag, splitFrom, hn] using hs []
    | cons q qs =>
      rw [splitTag, String.intercalate_cons_cons, String.append_assoc, String.toList_append]
      refine (hs _).trans ?_
      simpa [splitTag, splitFrom] using ih ht

lemma joined_splitFrom (depth : ℤ) (part cs : List Char) :
    part++cs = (",".intercalate (splitFrom depth part cs)).toList ∨
      part++cs = (",".intercalate (splitFrom depth part cs) ++ ",").toList := by
  induction cs generalizing depth part with
  | nil =>
    rw [splitFrom]
    split_ifs with h <;> simp [h]
  | cons c cs ih =>
    rw [splitFrom]
    split_ifs with ho hc hx
    · simpa using ih (depth+1) (part++[c])
    · simpa using ih (depth-1) (part++[c])
    · obtain ⟨rfl,-⟩ := hx
      have hi := ih depth []
      cases he : splitFrom depth [] cs with
      | nil => simp [(splitFrom_eq_nil.mp he).2]
      | cons q qs => simpa [he, String.intercalate_cons_cons] using hi
    · simpa using ih depth (part++[c])

/-- Parts with closed brackets come back from their join, and every tag from
its parts, up to a comma at its end. -/
theorem split_inverts_join :
    (∀ parts ≠ [], (∀ p ∈ parts, p ≠ "" ∧ Closed 0 p.toList) →
      splitTag (",".intercalate parts) = parts) ∧
    ∀ tag, tag = ",".intercalate (splitTag tag) ∨ tag = ",".intercalate (splitTag tag) ++ "," := by
  refine ⟨fun parts _ h => splitFrom_join h,fun tag => ?_⟩
  exact (joined_splitFrom 0 [] tag.toList).imp String.toList_injective String.toList_injective

end Parts

end SdkApi.ModelParsing
