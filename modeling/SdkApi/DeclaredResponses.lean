import SdkApi.OpenapiDocument

/-!
# The declared responses of an operation

The two passes of `operationResponses` over the sorted codes as one lookup: the
response of success under one code, and each other declared code with its own
description.
-/

namespace SdkApi.DeclaredResponses
open AssocLists GoStrings OpenapiDocument OpenapiSchemas Tables List Option

section
variable (text : ℤ → String) (e : EntryDef)

def isSuccess (code : String) : Bool := (atoi code.toList).any fun n => 200 ≤ n && n < 300

/-- The first declared code of success in the order of strings, or the default. -/
def successCode : String :=
  ((codes e).find? isSuccess).getD (if e.method = "POST" then "201" else "200")

/-- Numeric codes are written without sign or leading zeros. -/
def Canonical : Prop := ∀ code ∈ codes e, ∀ n, atoi code.toList = some n → code = toString n

def Numeric (code : String) (n : ℤ) : Prop := code ∈ codes e ∧ atoi code.toList = some n

lemma success_eq (h : Canonical e) : ∃ n, atoi (successCode e).toList = some n ∧
    successCode e = toString n ∧ (success text e).1 = n ∧
    (Numeric e (successCode e) n →
      (success text e).2 = describe text e (successCode e) n) := by
  have hi : (success text e) = (((codes e).find? isSuccess).bind fun code =>
      (atoi code.toList).map fun n => (n,describe text e code n)).getD
        (if e.method = "POST" then (201,"Created") else (200,"OK")) := by
    rw [success]
    congr 1
    induction codes e with
    | nil => rfl
    | cons code cs ih =>
      rw [findSome?_cons, find?_cons, isSuccess, ih]
      cases hco : atoi code.toList with
      | none => rfl
      | some n =>
        by_cases hn : 200 ≤ n ∧ n < 300
        · simp [hn, hco]
        · simp [hn, ← Bool.decide_and]
  rw [hi, successCode]
  cases hf : (codes e).find? isSuccess with
  | some code =>
    obtain ⟨n,hn,-⟩ := (Option.any_eq_true _ _).mp (find?_some hf : isSuccess code)
    exact ⟨n,hn,h code (mem_of_find?_eq_some hf) n hn,by simp [hn],fun _ => by simp [hn]⟩
  | none =>
    have he : ∀ n code, isSuccess code → ¬Numeric e code n := fun n code hok hu =>
      find?_eq_none.mp hf code hu.1 hok
    by_cases ho : e.method = "POST"
    · simp only [ho, if_true, getD_none, bind_none]
      exact ⟨201,by decide,by decide,rfl,fun hu => absurd hu (he _ _ (by decide))⟩
    · simp only [ho, if_false, getD_none, bind_none]
      exact ⟨200,by decide,by decide,rfl,fun hu => absurd hu (he _ _ (by decide))⟩

variable (err : Option Schema)

/-- What `addResponse` puts under a code. -/
def added (code : String) : Option (Option Response) :=
  (atoi code.toList).map fun n => if n = (success text e).1 then none
    else some ⟨describe text e code n,if 400 ≤ n then err else none⟩

lemma lookup_added (cs : List String) (state : String × GoMap (Option Response)) (code : String) :
    (cs.foldl (addResponse text e err) state).2.lookup code =
      ((if code ∈ cs then added text e err code else none).or
        (state.2.lookup code)) := by
  induction cs generalizing state with
  | nil => simp
  | cons c cs ih =>
    have hstep : (addResponse text e err state c).2.lookup code =
        ((if code = c then added text e err code else none).or
          (state.2.lookup code)) := by
      rw [addResponse, added]
      cases hn : atoi c.toList with
      | none => by_cases hc : code = c <;> simp [hc, hn]
      | some n =>
        dsimp only
        by_cases hs : n = (success text e).1 <;> by_cases hc : code = c <;>
          simp [lookup_set, hs, hc, hn]
    rw [foldl_cons, ih, hstep]
    by_cases hc : code = c
    · by_cases hcs : c ∈ cs <;> simp [hc, hcs, ← Option.or_assoc]
    · simp [hc]

lemma description_added (cs : List String) (state : String × GoMap (Option Response))
    (h : ∀ code ∈ cs, atoi code.toList = some (success text e).1 →
      describe text e code (success text e).1 = state.1) :
    (cs.foldl (addResponse text e err) state).1 = state.1 := by
  induction cs generalizing state with
  | nil => rfl
  | cons c cs ih =>
    have hstep : (addResponse text e err state c).1 = state.1 := by
      rw [addResponse]
      cases hn : atoi c.toList with
      | none => rfl
      | some n =>
        dsimp only
        by_cases hs : n = (success text e).1
        · rw [if_pos hs]
          exact ite_eq_right_iff.mpr fun _ => hs ▸ h c (by simp) (hs ▸ hn)
        · rw [if_neg hs]
    rw [foldl_cons, ih _ (hstep ▸ fun code hc => h code (by simp [hc])), hstep]

end

variable {text : ℤ → String} {τ : Type} {P : Program τ}

/-- The first declared code of success in the order of strings, or the default of the method. -/
def Success (e : EntryDef) (code : String) : Prop :=
  (code ∈ e.responses.map Prod.fst ∧ isSuccess code = true ∧
      ∀ other ∈ e.responses.map Prod.fst, isSuccess other = true → code ≤ other) ∨
    (∀ other ∈ e.responses.map Prod.fst, isSuccess other = false) ∧
      code = if e.method = "POST" then "201" else "200"

lemma mem_codes {e : EntryDef} {code : String} :
    code ∈ codes e ↔ code ∈ e.responses.map Prod.fst :=
  mem_insertionSort _

lemma mem_codes_of_lookup {e : EntryDef} {code d : String} (h : e.responses.lookup code = some d) :
    code ∈ codes e :=
  mem_codes.mpr (List.mem_map_of_mem (mem_of_lookup h))

lemma success_successCode (e : EntryDef) : Success e (successCode e) := by
  rw [successCode]
  cases hf : (codes e).find? isSuccess with
  | none => exact .inr ⟨fun other ho => by simpa using find?_eq_none.mp hf other (mem_codes.mpr ho),
      rfl⟩
  | some code =>
    obtain ⟨hs, before, after, hc, hb⟩ := find?_eq_some_iff_append.mp hf
    refine .inl ⟨mem_codes.mp (mem_of_find?_eq_some hf), hs, fun other ho hok => ?_⟩
    have hp : (codes e).Pairwise (· ≤ ·) := pairwise_insertionSort _ _
    rw [← mem_codes, hc, mem_append, mem_cons] at ho
    rw [hc, pairwise_append] at hp
    rcases ho with ho | rfl | ho
    · exact absurd hok (by simpa using hb other ho)
    · exact le_rfl
    · exact rel_of_pairwise_cons hp.2.1 ho

/-- The code of success has the success schema, and each other numeric declared
code its own description and from 400 on the error schema. -/
theorem responses_declared {go : τ × Components → Option (Schema × Components)} {e : EntryDef}
    (hnd : (e.responses.map Prod.fst).Nodup) (ha : Canonical e) {c c' : Components}
    {err : Option Schema} (her : if e.errorModel = "" then (err, c') = (none, c)
      else registerModelSchema P go e.errorModel c = some (err, c'))
    (ok : Option Schema) : ∃ rs s desc,
    operationResponses text P go e ok c = some (rs, c') ∧ Success e s ∧
    rs.lookup s = some ⟨desc, ok⟩ ∧
    (∀ d n, e.responses.lookup s = some d → atoi s.toList = some n →
      desc = if d = "" then text n else d) ∧
    (∀ code, code ≠ s → rs.lookup code = (e.responses.lookup code).bind fun d =>
      (atoi code.toList).map fun n =>
        ⟨if d = "" then text n else d, if 400 ≤ n then err else none⟩) ∧
    ∀ responses : GoMap String, responses.Perm e.responses →
      operationResponses text P go { e with responses } ok c = some (rs, c') := by
  have her : modelRef P go e.errorModel c = some (err, c') := by
    rw [modelRef]
    split_ifs at her ⊢ with hm
    · rw [her]
    · exact her
  have hdes : ∀ {code d}, e.responses.lookup code = some d → ∀ n, describe text e code n =
      if d = "" then text n else d := fun hd n => by
    simp only [describe, hd, getD_some, ne_eq, ite_not]
  obtain ⟨n0,ht,hco,hn0,hde⟩ := success_eq text e ha
  have hsa : ∀ code n, Numeric e code n → (n = n0 ↔ code = successCode e) := by
    refine fun code n hu => ⟨fun h => ?_,fun h => ?_⟩
    · rw [hco, ← h]
      exact ha code hu.1 n hu.2
    · exact some.inj (hu.2.symm.trans (h ▸ ht))
  have hk := description_added text e err (codes e)
    ((success text e).2,[(toString (success text e).1,none)]) (by
      intro code hc hn
      rw [hn0] at hn ⊢
      have heq := (hsa code n0 ⟨hc,hn⟩).mp rfl
      exact heq ▸ (hde (heq ▸ ⟨hc,hn⟩)).symm)
  have hl : ∀ code, (allResponses text e ok err).lookup code =
      if code = successCode e then some ⟨(success text e).2, ok⟩
      else if code ∈ codes e then (atoi code.toList).map fun n =>
        ⟨describe text e code n, if 400 ≤ n then err else none⟩ else none := by
    intro code
    rw [allResponses, hk, lookup_map_values fun _ (r : Option Response) => r.getD _, lookup_added,
      lookup_single, hn0, ← hco]
    by_cases hc : code = successCode e
    · by_cases hm : successCode e ∈ codes e <;> simp [hc, hm, added, ht, hn0]
    · by_cases hm : code ∈ codes e
      · cases hn : atoi code.toList with
        | none => simp [hc, hm, added, hn]
        | some n => simp [hc, hm, added, hn, hn0, mt (hsa code n ⟨hm,hn⟩).mp hc]
      · simp [hc, hm]
  refine ⟨_, successCode e, (success text e).2, by rw [operationResponses, her]; rfl,
    success_successCode e, by rw [hl, if_pos rfl], fun d n hd hn => ?_, fun code hc => ?_,
    fun responses hpe => ?_⟩
  · have hu : Numeric e (successCode e) n := ⟨mem_codes_of_lookup hd, hn⟩
    obtain rfl := (hsa _ _ hu).mpr rfl
    rw [hde hu, hdes hd]
  · rw [hl, if_neg hc]
    cases hd : e.responses.lookup code with
    | none =>
      rw [if_neg fun hm => ?_, bind_none]
      obtain ⟨p, hp, rfl⟩ := List.mem_map.mp (mem_codes.mp hm)
      exact absurd hd (by simpa using ⟨_, hp⟩)
    | some d => simp only [if_pos (mem_codes_of_lookup hd), hdes hd, bind_some]
  · have ho : codes { e with responses } = codes e :=
      Perm.eq_of_pairwise (fun _ _ _ _ => le_antisymm) (pairwise_insertionSort _ _)
        (pairwise_insertionSort _ _) ((perm_insertionSort _ _).trans
          ((hpe.map _).trans (perm_insertionSort _ _).symm))
    have he : describe text { e with responses } = describe text e := by
      funext code n
      rw [describe, describe, lookup_perm hnd hpe.symm]
    have hsu : success text { e with responses } = success text e := by simp only [success, ho, he]
    have had : addResponse text { e with responses } err =
        addResponse text e err := by
      funext state code
      simp only [addResponse, he, hsu]
    rw [operationResponses, her, map_some, allResponses, had, ho, hsu]
    rfl

def queue : EntryDef :=
  { toOptions := EntryOptions.restEntry "POST" "/queue", errorModel := "Problem"
    responses := [("404", ""), ("202", "queued"), ("soon", "later")] }

/-- Every model has one field of text. -/
def messages : Program Unit :=
  ⟨fun _ => .string, fun _ => some [{ column := "message", type := () }]⟩

theorem queue_responses : ∃ rs, operationResponses (fun _ => "Not Found") messages
      (fun r => some (.inline "string" "", r.2)) queue (some (.ref "Job")) [] =
        some (rs, [("Problem", .object [("message", .inline "string" "")])]) ∧
    rs.lookup "202" = some ⟨"queued", some (.ref "Job")⟩ ∧
    rs.lookup "404" = some ⟨"Not Found", some (.ref "Problem")⟩ ∧ rs.lookup "soon" = none := by
  have hc : ∀ {code}, code ∈ queue.responses.map Prod.fst →
      code = "404" ∨ code = "202" ∨ code = "soon" := by simp [queue]
  have ha : Canonical queue := by
    intro code hm n hn
    rcases hc (mem_codes.mp hm) with rfl | rfl | rfl
    · obtain rfl := some.inj (hn.symm.trans (show _ = some 404 by decide))
      decide
    · obtain rfl := some.inj (hn.symm.trans (show _ = some 202 by decide))
      decide
    · exact absurd (hn.symm.trans (show _ = none by decide)) nofun
  obtain ⟨rs, s, desc, h, hs, hl, hd, ho, -⟩ := @responses_declared (fun _ => "Not Found") Unit
    messages (fun r => some (.inline "string" "", r.2)) queue (by decide) ha [] _
    (some (.ref "Problem")) rfl (some (.ref "Job"))
  obtain rfl : s = "202" := by
    rcases hs with ⟨hm, hok, -⟩ | ⟨hno, -⟩
    · rcases hc hm with rfl | rfl | rfl
      · exact absurd hok (by decide)
      · rfl
      · exact absurd hok (by decide)
    · exact absurd (hno "202" (by decide)) (by decide)
  obtain rfl := hd "queued" 202 (by decide) (by decide)
  exact ⟨rs, h, hl, (ho "404" (by decide)).trans rfl, (ho "soon" (by decide)).trans rfl⟩

end SdkApi.DeclaredResponses
