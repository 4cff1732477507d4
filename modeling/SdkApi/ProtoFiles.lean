import SdkApi.GoStrings

/-!
# Generated proto files

The messages and calls that `GenerateProto` writes. The type of a field is a
text, to which slices, maps and the update message each add a label. The lines
around the messages are left out.
-/

namespace SdkApi.ProtoFiles
open List

/-- The kinds that `protoType` tells apart; pointers are among the others. -/
inductive GoType where
  | string | int | int64 | int32 | float64 | float32 | bool | uint8 | struct | other
  | slice (elem : GoType)
  | map (elem : GoType)
  deriving DecidableEq

def protoType : GoType → String
  | .int | .int64 => "int64"
  | .int32 => "int32"
  | .float64 => "double"
  | .float32 => "float"
  | .bool => "bool"
  | .slice e => if e = .uint8 then "bytes" else "repeated " ++ protoType e
  | .map e => "map<string, " ++ protoType e ++ ">"
  | _ => "string"

structure FieldInfo where
  column : String
  type : GoType
  skip : Bool := false
  primary : Bool := false
  auto : Bool := false

structure Field where
  type : String
  name : String
  number : ℕ

abbrev Message := String × List Field

def numbered (label : String) : ℕ → List FieldInfo → List Field
  | _, [] => []
  | i, f::fs => ⟨label ++ protoType f.type,f.column,i⟩::numbered label (i+1) fs

def kept (fs : List FieldInfo) : List FieldInfo := fs.filter fun f => !f.skip && f.column ≠ ""

def settable (fs : List FieldInfo) : List FieldInfo :=
  (kept fs).filter fun f => !f.primary && !f.auto

def idField : Field := ⟨"int64","id",1⟩

def messages (model : String) (fs : List FieldInfo) : List Message :=
  [(model,numbered "" 1 (kept fs)),
    ("Get" ++ model ++ "Request",[idField]),
    ("List" ++ model ++ "Request",[⟨"int32","page",1⟩,⟨"int32","size",2⟩]),
    ("List" ++ model ++ "Response",[⟨"repeated " ++ model,"items",1⟩,⟨"int32","total",2⟩]),
    ("Create" ++ model ++ "Request",numbered "" 2 (settable fs)),
    ("Update" ++ model ++ "Request",idField::numbered "optional " 2 (settable fs)),
    ("Delete" ++ model ++ "Request",[idField]),
    ("Delete" ++ model ++ "Response",[⟨"bool","ok",1⟩])]

/-- The request and the response of each call. -/
def rpcs (model : String) : List (String × String) :=
  [("Get" ++ model ++ "Request",model),
    ("List" ++ model ++ "Request","List" ++ model ++ "Response"),
    ("Create" ++ model ++ "Request",model),
    ("Update" ++ model ++ "Request",model),
    ("Delete" ++ model ++ "Request","Delete" ++ model ++ "Response")]

def scalars : List String := ["string","int64","int32","double","float","bool","bytes"]

def isIdentifier (s : String) : Bool :=
  s.toList.head?.any Char.isAlpha && s.toList.all fun c => c.isAlphanum || c = '_'

/-- A known type, under at most one label or as the values of a map. -/
def validType (names : List String) (t : String) : Bool :=
  (scalars++names).any fun s => isIdentifier s &&
    t ∈ [s,"repeated " ++ s,"optional " ++ s,"map<string, " ++ s ++ ">"]

def ValidFields (names : List String) (fs : List Field) : Prop :=
  (fs.map Field.name).Nodup ∧ (fs.map Field.number).Pairwise (· < ·) ∧
    ∀ f ∈ fs, isIdentifier f.name = true ∧ 0 < f.number ∧ validType names f.type = true

instance (names : List String) : DecidablePred (ValidFields names) := fun _ =>
  inferInstanceAs (Decidable (_ ∧ _ ∧ _))

def ValidFile (ms : List Message) (calls : List (String × String)) : Prop :=
  (∀ m ∈ ms, ValidFields (ms.map Prod.fst) m.2) ∧
    ∀ c ∈ calls, c.1 ∈ ms.map Prod.fst ∧ c.2 ∈ ms.map Prod.fst

def scalar : GoType → Bool
  | .slice e => e = .uint8
  | .map _ => false
  | _ => true

def flat : GoType → Bool
  | .slice e => scalar e
  | .map e => scalar e
  | _ => true

structure Supported (fs : List FieldInfo) : Prop where
  columns : ((kept fs).map FieldInfo.column).Nodup
  identifiers : ∀ f ∈ kept fs, isIdentifier f.column = true
  types : ∀ f ∈ kept fs, flat f.type = true
  updates : ∀ f ∈ settable fs, scalar f.type = true ∧ f.column ≠ "id"

lemma protoType_scalar {t : GoType} (h : scalar t) : protoType t ∈ scalars := by
  cases t <;> simp_all [scalar, protoType, scalars]

lemma not_identifier {s : String} {c : Char} (hc : c ∈ s.toList)
    (ho : (c.isAlphanum || c = '_') = false) : isIdentifier s = false := by
  rw [isIdentifier, Bool.and_eq_false_iff]
  exact .inr (all_eq_false.mpr ⟨c, hc, by simpa using ho⟩)

lemma isIdentifier_protoType {t : GoType} : isIdentifier (protoType t) ↔ scalar t := by
  constructor
  · intro h
    cases t with
    | slice e =>
      by_contra hs
      rw [protoType, if_neg (by simpa [scalar] using hs),
        @not_identifier _ ' ' (by simp) (by decide)] at h
      cases h
    | map e => rw [protoType, @not_identifier _ ' ' (by simp) (by decide)] at h; cases h
    | _ => rfl
  · exact fun h => (by decide : ∀ s ∈ scalars, isIdentifier s) _ (protoType_scalar h)

lemma validType_iff {names : List String} {t : String} : validType names t ↔
    ∃ s ∈ scalars++names, isIdentifier s ∧
      (t = s ∨ t = "repeated " ++ s ∨ t = "optional " ++ s ∨ t = "map<string, " ++ s ++ ">") := by
  simp only [validType, any_eq_true, Bool.and_eq_true, decide_eq_true_eq, mem_cons,
    not_mem_nil, or_false]

lemma head_ne {a b : String} (h : a.toList.head? ≠ b.toList.head?) : a ≠ b := fun he => h (he ▸ rfl)

section
variable {names : List String}

lemma validType_scalar {s : String} (h : s ∈ scalars) : validType names s :=
  validType_iff.mpr ⟨s, mem_append_left _ h, (by decide : ∀ s ∈ scalars, isIdentifier s) s h,
    .inl rfl⟩

lemma validType_repeated {model : String} (hm : model ∈ names) :
    validType names ("repeated " ++ model) ↔ isIdentifier model := by
  rw [validType_iff]
  constructor
  · rintro ⟨s, -, hs, rfl | h | h | h⟩
    · rw [@not_identifier _ ' ' (by simp) (by decide)] at hs
      cases hs
    · rwa [(String.append_right_inj _).mp h]
    · exact absurd h (head_ne (by simp))
    · exact absurd h (head_ne (by simp))
  · exact fun h => ⟨model, mem_append_right _ hm, h, by simp⟩

lemma validType_optional {t : GoType} :
    validType names ("optional " ++ protoType t) ↔ scalar t := by
  rw [validType_iff]
  constructor
  · rintro ⟨s, -, hs, rfl | h | h | h⟩
    · rw [@not_identifier _ ' ' (by simp) (by decide)] at hs
      cases hs
    · exact absurd h (head_ne (by simp))
    · rw [← isIdentifier_protoType, (String.append_right_inj _).mp h]
      exact hs
    · exact absurd h (head_ne (by simp))
  · exact fun h => ⟨protoType t, mem_append_left _ (protoType_scalar h),
      isIdentifier_protoType.mpr h, by simp⟩

lemma validType_flat {t : GoType} : validType names (protoType t) ↔ flat t := by
  by_cases ht : scalar t
  · have hf : flat t := by cases t <;> simp_all [scalar, flat]
    exact iff_of_true (validType_iff.mpr ⟨protoType t, mem_append_left _ (protoType_scalar ht),
      isIdentifier_protoType.mpr ht, .inl rfl⟩) hf
  · rw [validType_iff]
    have hno := mt isIdentifier_protoType.mp ht
    cases t with
    | slice e =>
      rw [protoType, if_neg (by simpa [scalar] using ht)] at hno ⊢
      rw [flat, ← isIdentifier_protoType]
      constructor
      · rintro ⟨s, -, hs, rfl | h | h | h⟩
        · exact absurd hs hno
        · rwa [(String.append_right_inj _).mp h]
        · exact absurd h (head_ne (by simp))
        · exact absurd h (head_ne (by simp))
      · exact fun h => ⟨protoType e, mem_append_left _
          (protoType_scalar (isIdentifier_protoType.mp h)), h, by simp⟩
    | map e =>
      rw [protoType] at hno ⊢
      rw [flat, ← isIdentifier_protoType]
      constructor
      · rintro ⟨s, -, hs, rfl | h | h | h⟩
        · exact absurd hs hno
        · exact absurd h (head_ne (by simp))
        · exact absurd h (head_ne (by simp))
        · rwa [(String.append_right_inj _).mp ((String.append_left_inj _).mp h)]
      · exact fun h => ⟨protoType e, mem_append_left _
          (protoType_scalar (isIdentifier_protoType.mp h)), h, by simp⟩
    | _ => simp [scalar] at ht

variable {label : String} {fs : List FieldInfo}

lemma numbered_fields (i : ℕ) : (numbered label i fs).map (fun x => (x.name,x.type)) =
    fs.map fun f => (f.column,label ++ protoType f.type) := by
  induction fs generalizing i with
  | nil => rfl
  | cons f fs ih => rw [numbered, map_cons, ih, map_cons]

lemma numbered_increasing (i : ℕ) : ((numbered label i fs).map Field.number).Pairwise (· < ·) ∧
    ∀ x ∈ numbered label i fs, i ≤ x.number := by
  induction fs generalizing i with
  | nil => simp [numbered]
  | cons f fs ih =>
    obtain ⟨hp, hi⟩ := ih (i+1)
    simp only [numbered, map_cons, pairwise_cons, forall_mem_cons, forall_mem_map]
    exact ⟨⟨hi, hp⟩, le_rfl, fun x hx => (Nat.le_succ i).trans (hi x hx)⟩

lemma numbered_valid_iff {i : ℕ} (hi : 0 < i) : ValidFields names (numbered label i fs) ↔
    (fs.map FieldInfo.column).Nodup ∧ ∀ f ∈ fs, isIdentifier f.column ∧
      validType names (label ++ protoType f.type) := by
  have hf := @numbered_fields label fs i
  obtain ⟨hp, hn⟩ := @numbered_increasing label fs i
  have hc : (numbered label i fs).map Field.name = fs.map FieldInfo.column := by
    simpa [Function.comp_def] using congrArg (map Prod.fst) hf
  have ha : ∀ P : String × String → Prop, (∀ x ∈ numbered label i fs, P (x.name,x.type)) ↔
      ∀ f ∈ fs, P (f.column,label ++ protoType f.type) := fun P => by
    rw [← forall_mem_map (P := P), hf, forall_mem_map]
  rw [ValidFields, hc, and_iff_right hp, ← ha fun x => isIdentifier x.1 ∧ validType names x.2]
  exact and_congr_right fun _ => forall₂_congr fun x hx =>
    and_congr_right fun _ => and_iff_right (hi.trans_le (hn x hx))

lemma cons_valid_iff {x : Field} {fs : List Field} : ValidFields names (x::fs) ↔
    (x.name ∉ fs.map Field.name ∧ ∀ y ∈ fs, x.number < y.number) ∧
      ValidFields names [x] ∧ ValidFields names fs := by
  simp only [ValidFields, map_cons, nodup_cons, pairwise_cons, forall_mem_cons, forall_mem_map]
  simp
  tauto

end

/-- The file is valid exactly for a model with an identifier as its name whose
columns are distinct identifiers, whose types have at most one slice or map
around a scalar, and whose columns that can be set are scalars not called id. -/
theorem file_valid_iff (model : String) (fs : List FieldInfo) :
    ValidFile (messages model fs) (rpcs model) ↔ isIdentifier model ∧ Supported fs := by
  have hr : ∀ c ∈ rpcs model, c.1 ∈ (messages model fs).map Prod.fst ∧
      c.2 ∈ (messages model fs).map Prod.fst := by simp [rpcs, messages]
  have hm : model ∈ (messages model fs).map Prod.fst := by simp [messages]
  rw [ValidFile, and_iff_left hr]
  generalize (messages model fs).map Prod.fst = names at hm
  have hs : ∀ s ∈ scalars, validType names s := fun s => validType_scalar
  have hf : ∀ f : FieldInfo, validType names ("" ++ protoType f.type) ↔ flat f.type := fun f => by
    rw [String.empty_append, validType_flat]
  have hn : (numbered "optional " 2 (settable fs)).map Field.name =
      (settable fs).map FieldInfo.column := by
    simpa [Function.comp_def] using congrArg (map Prod.fst) (numbered_fields 2)
  simp only [messages, forall_mem_cons]
  constructor
  · rintro ⟨h1, -, -, h4, -, h6, -⟩
    obtain ⟨hc, hk⟩ := (numbered_valid_iff (by decide)).mp h1
    obtain ⟨hi, -, ho⟩ := cons_valid_iff.mp h6
    have hu := ((numbered_valid_iff (by decide)).mp ho).2
    rw [hn] at hi
    exact ⟨(validType_repeated hm).mp (h4.2.2 _ (.head _)).2.2, hc, fun f h => (hk f h).1,
      fun f h => (hf f).mp (hk f h).2, fun f h => ⟨validType_optional.mp (hu f h).2,
        fun he => hi.1 (mem_map.mpr ⟨f, h, he⟩)⟩⟩
  · rintro ⟨hmodel, hc, hi, hk, hu⟩
    have hsub : ∀ f ∈ settable fs, f ∈ kept fs := fun f h => mem_of_mem_filter h
    have hcs : ((settable fs).map FieldInfo.column).Nodup := hc.sublist (filter_sublist.map _)
    have ho : ValidFields names (numbered "optional " 2 (settable fs)) :=
      (numbered_valid_iff (by decide)).mpr ⟨hcs, fun f h =>
        ⟨hi f (hsub f h), validType_optional.mpr (hu f h).1⟩⟩
    have hid : ValidFields names [idField] := by
      simp [ValidFields, idField, hs "int64" (by decide), show isIdentifier "id" from by decide]
    refine ⟨(numbered_valid_iff (by decide)).mpr ⟨hc, fun f h => ⟨hi f h, (hf f).mpr (hk f h)⟩⟩,
      hid, ?_, ?_, (numbered_valid_iff (by decide)).mpr ⟨hcs, fun f h =>
        ⟨hi f (hsub f h), (hf f).mpr (hk f (hsub f h))⟩⟩, cons_valid_iff.mpr ⟨⟨?_, ?_⟩, hid, ho⟩,
      hid, ?_, by simp⟩
    · simp [ValidFields, hs "int32" (by decide), show isIdentifier "page" from by decide,
        show isIdentifier "size" from by decide]
    · simp [ValidFields, (validType_repeated hm).mpr hmodel, hs "int32" (by decide),
        show isIdentifier "items" from by decide, show isIdentifier "total" from by decide]
    · rw [hn]
      rintro h
      obtain ⟨f, hf, he⟩ := mem_map.mp h
      exact (hu f hf).2 he
    · exact (numbered_increasing 2).2
    · simp [ValidFields, hs "bool" (by decide), show isIdentifier "ok" from by decide]

/-- Nested slices repeat a label, and an update makes a slice optional. -/
theorem nested_invalid :
    ¬ValidFile (messages "M" [{ column := "a", type := .slice (.slice .string) }]) (rpcs "M") ∧
    ¬ValidFile (messages "M" [{ column := "a", type := .slice .string }]) (rpcs "M") := by
  rw [ValidFile, ValidFile]
  decide

end SdkApi.ProtoFiles
