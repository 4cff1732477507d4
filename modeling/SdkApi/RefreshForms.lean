import SdkApi.GoStrings

/-!
# The form of a token refresh

`zitadelTokenRefresh` writes the refresh token and the client id into the body
as they are. The body is read as `url.ParseQuery` does: cut at `&`, each part
at its first `=`, and `+` and `%` undone; what cannot be read is left out.
-/

namespace SdkApi.RefreshForms
open List

def requestBody (refreshToken clientID : String) : String :=
  "grant_type=refresh_token&refresh_token=" ++ refreshToken ++ "&client_id=" ++ clientID

def unhex (c : Char) : Option ℕ :=
  if '0' ≤ c ∧ c ≤ '9' then some (c.toNat-48)
  else if 'a' ≤ c ∧ c ≤ 'f' then some (c.toNat-87)
  else if 'A' ≤ c ∧ c ≤ 'F' then some (c.toNat-55)
  else none

def queryUnescape : List Char → Option (List Char)
  | [] => some []
  | a::rest =>
    if a = '%' then
      match rest with
      | b::c::rest => (unhex b).bind fun x => (unhex c).bind fun y =>
          (queryUnescape rest).map (Char.ofNat (16*x+y)::·)
      | _ => none
    else (queryUnescape rest).map ((if a = '+' then ' ' else a)::·)

def parsePart (part : List Char) : Option (String × String) :=
  if part = [] ∨ ';' ∈ part then none
  else (queryUnescape (part.takeWhile (· ≠ '='))).bind fun key =>
    (queryUnescape (part.dropWhile (· ≠ '=')).tail).map fun value =>
      (String.ofList key,String.ofList value)

def parseQuery (body : String) : List (String × String) :=
  (body.toList.splitOn '&').filterMap parsePart

/-- No character that a form reserves. -/
def plain (s : List Char) : Bool := s.all fun c => c ∉ ['&',';','%','+']

lemma queryUnescape_plain {s : List Char} (h : plain s) : queryUnescape s = some s := by
  induction s with
  | nil => rfl
  | cons a s ih =>
    obtain ⟨ha,hs⟩ : a ∉ ['&',';','%','+'] ∧ plain s := by simpa [plain] using h
    rw [mem_cons, mem_cons, mem_cons, mem_singleton] at ha
    simp only [not_or] at ha
    rw [queryUnescape.eq_def]
    dsimp only
    rw [if_neg ha.2.2.1, if_neg ha.2.2.2, ih hs]
    rfl

lemma plain_append (s t : List Char) : plain (s++ '='::t) = (plain s && plain t) := by
  simp [plain]

lemma not_mem_plain {s : List Char} (h : plain s) {c : Char}
    (hc : c ∈ ['&',';','%','+']) : c ∉ s := fun hm => by
  have hno := all_eq_true.mp h c hm
  simp [hc] at hno

lemma parsePart_pair {key : List Char} (he : '=' ∉ key) (value : List Char) :
    parsePart (key++ '='::value) = if ';' ∈ key++ '='::value then none
      else (queryUnescape key).bind fun k => (queryUnescape value).map fun v =>
        (String.ofList k,String.ofList v) := by
  have hne : ∀ c ∈ key, decide (c ≠ '=') := fun c hc => decide_eq_true fun h => he (h ▸ hc)
  rw [parsePart, takeWhile_append_of_pos hne, dropWhile_append_of_pos hne]
  simp

def parts (s : List Char) : List (String × String) := (s.splitOn '&').filterMap parsePart

def weight (ps : List (String × String)) : ℕ :=
  (ps.flatMap fun p => p.1.toList++p.2.toList).length

lemma length_queryUnescape {s t : List Char} (h : queryUnescape s = some t) :
    t.length ≤ s.length ∧ (t = s → '%' ∉ s ∧ '+' ∉ s) := by
  fun_induction queryUnescape s generalizing t with
  | case1 => simp_all
  | case2 b c rest ih =>
    simp only [Option.bind_eq_some_iff, Option.map_eq_some_iff] at h
    obtain ⟨x, -, y, -, u, hu, rfl⟩ := h
    have hl := (ih hu).1
    simp only [length_cons]
    refine ⟨by omega, fun he => absurd (congrArg length he) ?_⟩
    simp only [length_cons]
    omega
  | case3 => cases h
  | case4 a rest ha ih =>
    obtain ⟨u, hu, rfl⟩ := Option.map_eq_some_iff.mp h
    refine ⟨by simpa using (ih hu).1, fun he => ?_⟩
    obtain ⟨h1, h2⟩ := cons.inj he
    obtain ⟨h3, h4⟩ := (ih hu).2 h2
    have hp : a ≠ '+' := by
      rintro rfl
      simp at h1
    exact ⟨by simp [h3, Ne.symm ha], by simp [h4, Ne.symm hp]⟩

lemma parts_append (s t : List Char) : parts (s++ '&'::t) = parts s++parts t := by
  rw [parts, splitOn, splitOnP_append_cons s t (by simp), filterMap_append]
  rfl

lemma parts_single {s : List Char} (h : '&' ∉ s) : parts s = (parsePart s).toList := by
  rw [parts, splitOn_eq_singleton h]
  cases hp : parsePart s <;> simp [hp]

lemma weight_append (ps qs : List (String × String)) :
    weight (ps++qs) = weight ps+weight qs := by
  simp [weight]

lemma weight_parsePart (s : List Char) : weight (parsePart s).toList ≤ s.length := by
  cases hp : parsePart s with
  | none => simp [weight]
  | some p =>
    simp only [parsePart, ite_eq_iff, reduceCtorEq, and_false, false_or, Option.bind_eq_some_iff,
      Option.map_eq_some_iff] at hp
    obtain ⟨-, key, hk, value, hv, rfl⟩ := hp
    have h1 := (length_queryUnescape hk).1
    have h2 := (length_queryUnescape hv).1
    have hl := congrArg length (takeWhile_append_dropWhile (p := (· ≠ '=')) (l := s))
    simp only [length_append, length_tail] at h2 hl
    simp only [weight, Option.toList_some, flatMap_singleton, length_append,
      String.toList_ofList]
    omega

/-- Decoding makes no text longer. -/
lemma weight_parts (s : List Char) : weight (parts s) ≤ s.length := by
  induction hn : s.length using Nat.strong_induction_on generalizing s with
  | _ n ih =>
    by_cases ha : '&' ∈ s
    · obtain ⟨t, u, rfl⟩ := append_of_mem ha
      simp only [length_append, length_cons] at hn
      have ht := ih t.length (by omega) t rfl
      have hu := ih u.length (by omega) u rfl
      rw [parts_append, weight_append]
      omega
    · rw [parts_single ha, ← hn]
      exact weight_parsePart s

/-- A parameter is read as it was written exactly if its value is plain. -/
lemma parts_pair_iff {key value : List Char} (hk : plain key) (he : '=' ∉ key) :
    parts (key++ '='::value) = [(String.ofList key,String.ofList value)] ↔ plain value := by
  constructor
  · intro h
    have hk' : ∀ t, '&' ∉ t → '&' ∉ key++ '='::t := fun t ht => by
      simp [ht, not_mem_plain hk]
    have hv : ∀ t v, '&' ∉ t → (parsePart (key++ '='::t)).toList = [(String.ofList key,v)] →
        ';' ∉ t ∧ queryUnescape t = some v.toList := by
      intro t v ht h
      rw [parsePart_pair he, Option.toList_eq_singleton_iff, ite_eq_iff] at h
      rcases h with ⟨-, h⟩ | ⟨hs, h⟩
      · cases h
      · simp only [Option.bind_eq_some_iff, Option.map_eq_some_iff, Prod.mk.injEq] at h
        obtain ⟨k, -, w, hw, -, rfl⟩ := h
        exact ⟨fun hm => hs (by simp [hm]), by rw [hw, String.toList_ofList]⟩
    have ha : '&' ∉ value := by
      intro ha
      obtain ⟨t, u, rfl, ht⟩ := eq_append_cons_of_mem ha
      rw [← cons_append, ← append_assoc, parts_append, parts_single (hk' t ht)] at h
      rcases append_eq_singleton_iff.mp h with ⟨-, h⟩ | ⟨h, -⟩
      · have hu := weight_parts u
        rw [h] at hu
        simp [weight] at hu
        omega
      · have hl := (length_queryUnescape (hv t _ ht h).2).1
        simp at hl
    rw [parts_single (hk' value ha)] at h
    obtain ⟨h1, h2⟩ := hv value _ ha h
    rw [String.toList_ofList] at h2
    obtain ⟨h3, h4⟩ := (length_queryUnescape h2).2 rfl
    simp only [plain, all_eq_true, decide_eq_true_eq]
    rintro c hc hm
    simp only [mem_cons, not_mem_nil, or_false] at hm
    rcases hm with rfl | rfl | rfl | rfl
    all_goals contradiction
  · intro hv
    have hs : ∀ c ∈ ['&',';'], c ∉ key++ '='::value := fun c hc =>
      not_mem_plain (by rw [plain_append, hk, hv]; rfl) (by simp at hc ⊢; tauto)
    rw [parts_single (hs _ (by simp)), parsePart_pair he, if_neg (hs _ (by simp)),
      queryUnescape_plain hk, queryUnescape_plain hv]
    rfl

/-- The form has the intended parameters exactly if neither the token nor the
client id has a character that a form reserves. -/
theorem refresh_form_iff (refreshToken clientID : String) :
    parseQuery (requestBody refreshToken clientID) =
      [("grant_type","refresh_token"),("refresh_token",refreshToken),("client_id",clientID)] ↔
    plain refreshToken.toList ∧ plain clientID.toList := by
  have hb : (requestBody refreshToken clientID).toList =
      ("grant_type".toList++ '='::"refresh_token".toList)++ '&'::
        (("refresh_token".toList++ '='::refreshToken.toList)++ '&'::
          ("client_id".toList++ '='::clientID.toList)) := by
    unfold requestBody
    simp
  have hg := (@parts_pair_iff "grant_type".toList "refresh_token".toList (by simp [plain])
    (by simp)).mpr (by simp [plain])
  have hp : parseQuery (requestBody refreshToken clientID) = ("grant_type","refresh_token")::
      (parts ("refresh_token".toList++ '='::refreshToken.toList)++
        parts ("client_id".toList++ '='::clientID.toList)) := by
    rw [parseQuery, hb]
    change parts _ = _
    rw [parts_append, parts_append, hg, String.ofList_toList, String.ofList_toList]
    rfl
  have ht := @parts_pair_iff "refresh_token".toList refreshToken.toList (by simp [plain]) (by simp)
  have hc := @parts_pair_iff "client_id".toList clientID.toList (by simp [plain]) (by simp)
  simp only [String.ofList_toList] at ht hc
  rw [hp, ← ht, ← hc, cons.injEq, and_iff_right rfl]
  have hwt := weight_parts ("refresh_token".toList++ '='::refreshToken.toList)
  have hwc := weight_parts ("client_id".toList++ '='::clientID.toList)
  generalize parts ("refresh_token".toList++ '='::refreshToken.toList) = ps at *
  generalize parts ("client_id".toList++ '='::clientID.toList) = qs at *
  rw [length_append, length_cons] at hwt hwc
  constructor
  · intro h
    rcases append_eq_cons_iff.mp h with ⟨rfl, rfl⟩ | ⟨ps', rfl, h'⟩
    · simp [weight] at hwc
      omega
    rcases append_eq_singleton_iff.mp h'.symm with ⟨rfl, rfl⟩ | ⟨rfl, rfl⟩
    · exact ⟨rfl, rfl⟩
    · simp [weight] at hwt
      omega
  · rintro ⟨rfl, rfl⟩
    rfl

/-- A token with `&` in it adds parameters of its own. -/
theorem token_adds_client : parseQuery (requestBody "a&client_id=b" "c") =
    [("grant_type","refresh_token"),("refresh_token","a"),("client_id","b"),("client_id","c")] := by
  decide +kernel

end SdkApi.RefreshForms
