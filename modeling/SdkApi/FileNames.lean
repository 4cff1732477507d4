import Mathlib.Data.List.Basic

/-!
# Names of uploaded files

`SanitizeFilename` keeps the safe characters of a name, before and in its
extension. The dot is one of them, so a name may come out as a directory, or as
an extension without a name, which a second pass would complete. A name is the
list of its runes; every safe rune is one byte.
-/

namespace SdkApi.FileNames
open List

def isSafeFileChar (c : Char) : Bool :=
  'a' ≤ c ∧ c ≤ 'z' ∨ 'A' ≤ c ∧ c ≤ 'Z' ∨ '0' ≤ c ∧ c ≤ '9' ∨ c ∈ ['.', '_', '-']

/-- The loop of `filepath.Ext`, from the end of the name. -/
def extFrom : List Char → List Char → List Char
  | [], _ => []
  | c::rest, read =>
    if c = '/' then [] else if c = '.' then c::read else extFrom rest (c::read)

def fileExt (name : List Char) : List Char := extFrom name.reverse []

def baseName (name : List Char) : List Char := name.take (name.length-(fileExt name).length)

def safeBase (name : List Char) : List Char :=
  ((((baseName name).filter (· ≠ '/')).filter (· ≠ '\\')).filter (· ≠ '\x00')).filter isSafeFileChar

def stem (name : List Char) : List Char :=
  if safeBase name = [] then "untitled".toList else safeBase name

def sanitizeFilename (name : List Char) : List Char :=
  if name = [] then "untitled".toList
  else
    let result := (stem name++(fileExt name).filter isSafeFileChar).take 255
    if result = [] then "untitled".toList else result

structure SafeName (r : List Char) : Prop where
  nonempty : r ≠ []
  bounded : r.length ≤ 255
  alphabet : ∀ c ∈ r, isSafeFileChar c = true
  component : '/' ∉ r ∧ '\\' ∉ r ∧ r ≠ ['.'] ∧ r ≠ ['.', '.']
  stable : sanitizeFilename r = r

/-- The parent directory, or an extension without a name. -/
def Dotted (s : List Char) : Prop := s = ['.', '.'] ∨ s.head? = some '.' ∧ '.' ∉ s.tail

lemma extFrom_suffix (rest read : List Char) : extFrom rest read <:+ rest.reverse++read := by
  induction rest generalizing read with
  | nil => simp [extFrom]
  | cons c rest ih =>
    rw [extFrom]
    split_ifs with hs hd
    · simp
    · simp [hd]
    · simpa using ih (c::read)

lemma baseName_append (name : List Char) : baseName name++fileExt name = name := by
  have hs := extFrom_suffix name.reverse []
  rw [reverse_reverse, append_nil] at hs
  exact suffix_iff_eq_append.mp hs

section

variable {s : List Char} (hs : ∀ c ∈ s, c ≠ '/' ∧ c ≠ '.')
include hs

lemma extFrom_plain (read : List Char) : extFrom s read = [] := by
  induction s generalizing read with
  | nil => rfl
  | cons c s ih =>
    obtain ⟨⟨hl, hd⟩, hs⟩ := forall_mem_cons.mp hs
    rw [extFrom, if_neg hl, if_neg hd, ih hs]

lemma extFrom_dot (u read : List Char) : extFrom (s++ '.'::u) read = '.'::(s.reverse++read) := by
  induction s generalizing read with
  | nil => simp [extFrom]
  | cons c s ih =>
    obtain ⟨⟨hl, hd⟩, hs⟩ := forall_mem_cons.mp hs
    rw [cons_append, extFrom, if_neg hl, if_neg hd, ih hs]
    simp

end

section

variable (name : List Char)

lemma safeBase_eq : safeBase name = (baseName name).filter isSafeFileChar := by
  simp only [safeBase, filter_filter]
  refine filter_congr fun c _ => ?_
  have ho : ∀ x, isSafeFileChar x = false → (isSafeFileChar c && decide (c ≠ x)) =
      isSafeFileChar c := by
    intro x hx
    by_cases he : c = x
    · simp [he, hx]
    · simp [he]
  rw [← Bool.and_assoc, ← Bool.and_assoc, ho _ rfl, ho _ rfl, ho _ rfl]

lemma stem_spec : stem name ≠ [] ∧ ∀ c ∈ stem name, isSafeFileChar c := by
  rw [stem]
  split_ifs with h
  · exact ⟨by decide, by simp [isSafeFileChar]⟩
  · exact ⟨h, fun c hc => (mem_filter.mp hc).2⟩

lemma sanitizeFilename_eq : sanitizeFilename name =
    (stem name++(fileExt name).filter isSafeFileChar).take 255 := by
  cases name with
  | nil => rfl
  | cons c name => simp [sanitizeFilename, (stem_spec _).1]

end

section

variable {name : List Char} (hs : ∀ c ∈ name, isSafeFileChar c)
include hs

lemma baseName_nil_iff (hn : name ≠ []) :
    baseName name = [] ↔ name.head? = some '.' ∧ '.' ∉ name.tail := by
  have hl : ∀ c ∈ name, c ≠ '/' := fun c hc he => absurd (hs c hc) (by simp [he, isSafeFileChar])
  by_cases hd : '.' ∈ name
  · -- the extension starts at the last dot
    obtain ⟨t, a, he, ht⟩ := eq_append_cons_of_mem (mem_reverse.mpr hd)
    have hr : name = a.reverse++ '.'::t.reverse := by simpa using congrArg reverse he
    have hx : fileExt name = '.'::t.reverse := by
      rw [fileExt, he, extFrom_dot, append_nil]
      exact fun c hc => ⟨hl c (by simp [hr, hc]), fun hd => ht (hd ▸ hc)⟩
    have hb : baseName name = a.reverse :=
      append_cancel_right ((hx ▸ baseName_append name).trans hr)
    rw [hb, hr]
    cases a.reverse with
    | nil => simp [ht]
    | cons c a => simp
  · have hx : fileExt name = [] := extFrom_plain (fun c hc =>
      ⟨hl c (mem_reverse.mp hc), fun he => hd (he ▸ mem_reverse.mp hc)⟩) []
    have hb : baseName name = name := by simpa [hx] using baseName_append name
    rw [hb]
    exact iff_of_false hn fun h => hd (mem_of_mem_head? h.1)

lemma sanitizeFilename_fixed_iff (hn : name ≠ []) (hl : name.length ≤ 255) :
    sanitizeFilename name = name ↔ ¬(name.head? = some '.' ∧ '.' ∉ name.tail) := by
  have ha := baseName_append name
  have hb : safeBase name = baseName name := by
    rw [safeBase_eq]
    exact filter_eq_self.mpr fun c hc => hs c (mem_of_mem_take hc)
  have hf : (fileExt name).filter isSafeFileChar = fileExt name :=
    filter_eq_self.mpr fun c hc => hs c (ha ▸ mem_append_right _ hc)
  rw [← baseName_nil_iff hs hn, sanitizeFilename_eq, stem, hb, hf]
  split_ifs with hi
  · refine iff_of_false (fun he => ?_) (not_not.mpr hi)
    have hh := ((baseName_nil_iff hs hn).mp hi).1
    rw [← he] at hh
    exact absurd hh (by simp)
  · rw [ha, take_of_length_le hl]
    exact iff_of_true rfl hi

lemma safeName_iff (hn : name ≠ []) (hl : name.length ≤ 255) :
    SafeName name ↔ ¬Dotted name := by
  have hf := sanitizeFilename_fixed_iff hs hn hl
  constructor
  · rintro ⟨-, -, -, hc, ht⟩ (he | hd)
    · exact hc.2.2.2 he
    · exact hf.mp ht hd
  · intro h
    obtain ⟨hp, hd⟩ := not_or.mp h
    have ho : ∀ x, isSafeFileChar x = false → x ∉ name := fun x hx hm => by
      rw [hs x hm] at hx
      cases hx
    exact ⟨hn, hl, hs, ⟨ho _ rfl, ho _ rfl, fun he => hd (by simp [he]), hp⟩, hf.mpr hd⟩

end

/-- The result is safe exactly if the name has no safe character before its extension, or
its first 255 safe characters are neither two dots nor an extension alone. -/
theorem sanitizeFilename_safe_iff (name : List Char) : SafeName (sanitizeFilename name) ↔
    (∀ c ∈ baseName name, isSafeFileChar c = false) ∨
      ¬Dotted ((name.filter isSafeFileChar).take 255) := by
  have he := sanitizeFilename_eq name
  obtain ⟨hn, hs⟩ := stem_spec name
  rw [safeName_iff _ (by simp [he, hn])
    (he ▸ length_take_le _ _)]
  · rw [he, stem]
    split_ifs with h
    · refine iff_of_true (fun hd => ?_) (.inl ?_)
      · rcases hd with hd | hd
        · exact absurd (congrArg head? hd) (by simp)
        · exact absurd hd.1 (by simp)
      · simpa [safeBase_eq, filter_eq_nil_iff] using h
    · rw [safeBase_eq] at h ⊢
      rw [← filter_append, baseName_append, or_iff_right (by simpa [filter_eq_nil_iff] using h)]
  · intro c hc
    rw [he] at hc
    rcases mem_append.mp (mem_of_mem_take hc) with hc | hc
    · exact hs c hc
    · exact (mem_filter.mp hc).2

theorem sanitizeFilename_unsafe :
    sanitizeFilename "..".toList = "..".toList ∧ sanitizeFilename "./".toList = ".".toList ∧
    sanitizeFilename ".abc/".toList = ".abc".toList ∧
    sanitizeFilename ".abc".toList = "untitled.abc".toList := by
  decide

end SdkApi.FileNames
