import SdkApi.UniqueRows

/-!
# Signed tokens

A scheme turns a payload into a token with a method and a signing key, reads
header and payload of a token back, and verifies a token with a verification
key. It is correct when what it signed is read back as it was and is verified
by exactly the keys that belong to the signing key. Methods, keys and payloads
are arbitrary.
-/

namespace SdkApi.SignedTokens
open UniqueRows List Option

structure Header (M : Type) where
  method : M
  kid : Option String

structure Scheme (M K V P : Type) where
  sign : M → K → P → Option String
  inspect : String → Option (Header M × P)
  verify : M → V → String → Bool
  /-- The verification key belongs to the signing key. -/
  pairs : M → K → V → Prop
  sign_ne : ∀ m k p t, sign m k p = some t → t ≠ ""
  inspect_sign : ∀ m k p t, sign m k p = some t → inspect t = some (⟨m,none⟩,p)
  verify_sign : ∀ m k p t v, sign m k p = some t → (verify m v t = true ↔ pairs m k v)

variable {M K V P : Type}

def Scheme.parse (s : Scheme M K V P) (keyFor : Header M → Option V) (valid : P → Bool)
    (t : String) : Option P := do
  let (h,p) ← s.inspect t
  let v ← keyFor h
  if s.verify h.method v t && valid p then some p else none

lemma Scheme.parse_sign (s : Scheme M K V P) (keyFor : Header M → Option V) (valid : P → Bool)
    {m : M} {k : K} {p q : P} {t : String} (h : s.sign m k p = some t) :
    s.parse keyFor valid t = some q ↔ q = p ∧ valid p ∧ ∃ v ∈ keyFor ⟨m,none⟩, s.pairs m k v := by
  simp only [parse, s.inspect_sign m k p t h, bind_eq_bind, bind_some,
    bind_eq_some_iff]
  constructor
  · rintro ⟨v,hv,ht⟩
    split_ifs at ht with hok
    rw [Bool.and_eq_true, s.verify_sign m k p t v h] at hok
    exact ⟨(some.inj ht).symm,hok.2,v,hv,hok.1⟩
  · rintro ⟨rfl,ha,v,hv,hi⟩
    refine ⟨v,hv,if_pos ?_⟩
    rw [(s.verify_sign m k q t v h).mpr hi, ha]
    rfl

section

variable [DecidableEq M] [DecidableEq K] [DecidableEq P]

structure Entry (M K P : Type) where
  token : String
  method : M
  key : K
  payload : P

def signed (ledger : List (Entry M K P)) (m : M) (k : K) (p : P) : Option String :=
  (ledger.find? fun e => e.method = m ∧ e.key = k ∧ e.payload = p).map Entry.token

lemma signed_some {ledger : List (Entry M K P)} {m : M} {k : K} {p : P} {t : String}
    (h : signed ledger m k p = some t) : (⟨t,m,k,p⟩ : Entry M K P) ∈ ledger := by
  obtain ⟨e,he,rfl⟩ := map_eq_some_iff.mp h
  have hi := find?_some he
  simp only [decide_eq_true_eq] at hi
  obtain ⟨rfl,rfl,rfl⟩ := hi
  exact mem_of_find?_eq_some he

/-- Exactly the signatures in the ledger can be made. -/
def Scheme.ofLedger (ledger : List (Entry M K P)) (pairs : M → K → V → Bool)
    (hunique : KeysUnique Entry.token ledger) (hne : ∀ e ∈ ledger, e.token ≠ "") :
    Scheme M K V P where
  sign := signed ledger
  inspect t := (find Entry.token t ledger).map fun e => (⟨e.method,none⟩,e.payload)
  verify m v t := (find Entry.token t ledger).any fun e => e.method = m && pairs m e.key v
  pairs m k v := pairs m k v = true
  sign_ne m k p t h := hne _ (signed_some h)
  inspect_sign m k p t h := by
    have he := find_of_mem hunique (signed_some h)
    simp only at he
    rw [he]
    rfl
  verify_sign m k p t v h := by
    have he := find_of_mem hunique (signed_some h)
    simp only at he
    simp [he]

end

end SdkApi.SignedTokens
