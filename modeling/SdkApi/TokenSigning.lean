import SdkApi.SignedTokens
import SdkApi.CredentialMiddleware

/-!
# Signing and parsing of access tokens

`SignToken` and the parser of the JWT middleware choose method and key of a
configuration separately. The token library is a scheme for signed tokens, and
what `crypto/x509` makes of a key text is a parameter.
-/

namespace SdkApi.TokenSigning
open GoStrings RequestContext CredentialMiddleware SignedTokens

/-- A header with another algorithm is not read at all. -/
inductive Method where
  | hs256
  | hs384
  | hs512
  | rs256
  | rs384
  | rs512
  | es256
  | es384
  | es512
  | ps256
  | ps384
  | ps512
  | edDSA
  | none
  deriving DecidableEq

/-- The Go types of the methods; that of the `PS` ones only embeds `rsa`. -/
inductive Family where
  | hmac
  | rsa
  | ecdsa
  | rsaPSS
  | ed25519
  | none
  deriving DecidableEq

def Method.alg : Method → String
  | .hs256 => "HS256"
  | .hs384 => "HS384"
  | .hs512 => "HS512"
  | .rs256 => "RS256"
  | .rs384 => "RS384"
  | .rs512 => "RS512"
  | .es256 => "ES256"
  | .es384 => "ES384"
  | .es512 => "ES512"
  | .ps256 => "PS256"
  | .ps384 => "PS384"
  | .ps512 => "PS512"
  | .edDSA => "EdDSA"
  | .none => "none"

def Method.family : Method → Family
  | .hs256 | .hs384 | .hs512 => .hmac
  | .rs256 | .rs384 | .rs512 => .rsa
  | .es256 | .es384 | .es512 => .ecdsa
  | .ps256 | .ps384 | .ps512 => .rsaPSS
  | .edDSA => .ed25519
  | .none => .none

inductive KeyKind where
  | rsa
  | ecdsa
  | other
  deriving DecidableEq

/-- `pem.Decode` and the parsers of `crypto/x509`, on the bytes of a block. -/
structure X509 (A B : Type) where
  decode : String → Option String
  parsePKIXPublicKey : String → Option B
  parsePKCS8PrivateKey : String → Option A
  parsePKCS1PrivateKey : String → Option A
  parseECPrivateKey : String → Option A
  publicKey : A → B
  kind : B → KeyKind

inductive SigningKey (A : Type) where
  | secret (s : String)
  | key (k : A)
  deriving DecidableEq

inductive VerifyKey (B : Type) where
  | secret (s : String)
  | key (k : B)

section

variable {A B : Type} (x : X509 A B)

def parsePublicKey (kind : KeyKind) (parsePrivate : String → Option A) (pem : String) :
    Option B := do
  let block ← x.decode pem
  match x.parsePKIXPublicKey block with
  | some key => if x.kind key = kind then some key else none
  | none =>
    let priv ← (x.parsePKCS8PrivateKey block).or (parsePrivate block)
    if x.kind (x.publicKey priv) = kind then some (x.publicKey priv) else none

def parseRSAPublicKey (pem : String) : Option B :=
  parsePublicKey x .rsa x.parsePKCS1PrivateKey pem

def parseECDSAPublicKey (pem : String) : Option B :=
  parsePublicKey x .ecdsa x.parseECPrivateKey pem

def parsePrivateKey (parsePrivate : String → Option A) (pem : String) : Option A := do
  let block ← x.decode pem
  (x.parsePKCS8PrivateKey block).or (parsePrivate block)

def parseRSAPrivateKey (pem : String) : Option A := parsePrivateKey x x.parsePKCS1PrivateKey pem

def parseECDSAPrivateKey (pem : String) : Option A := parsePrivateKey x x.parseECPrivateKey pem

/-- The key that `newParser` keeps for an algorithm. -/
def verifyKey (algorithm secret : String) : Option (VerifyKey B) :=
  if hasPrefix algorithm "HS" then some (.secret secret)
  else if hasPrefix algorithm "RS" then (parseRSAPublicKey x secret).map .key
  else if hasPrefix algorithm "ES" then (parseECDSAPublicKey x secret).map .key
  else none

def expectedFamily (algorithm : String) : Option Family :=
  if hasPrefix algorithm "HS" then some .hmac
  else if hasPrefix algorithm "RS" then some .rsa
  else if hasPrefix algorithm "ES" then some .ecdsa
  else none

def signingKey (algorithm secret : String) : Option (SigningKey A) :=
  if hasPrefix algorithm "HS" ∨ algorithm = "" then some (.secret secret)
  else if hasPrefix algorithm "RS" then (parseRSAPrivateKey x secret).map .key
  else if hasPrefix algorithm "ES" then (parseECDSAPrivateKey x secret).map .key
  else none

end

/-- The switch of `SignToken`. -/
def signingMethod (algorithm : String) : Method :=
  ([.hs384,.hs512,.rs256,.rs384,.rs512,.es256,.es384,.es512].find? fun m =>
    Method.alg m = algorithm).getD .hs256

structure Library (A B : Type) where
  x509 : X509 A B
  scheme : Scheme Method (SigningKey A) (VerifyKey B) MapClaims
  jwks : String → String → Option B

/-- The validation of times by `golang-jwt`; a date of zero is none. -/
def timely (now : ℤ) (claims : MapClaims) : Bool :=
  (match claims.lookup "exp" with
    | none => true
    | some (.num t) => t = 0 || now < t
    | some _ => false) &&
  match claims.lookup "nbf" with
  | none => true
  | some (.num t) => t = 0 || t ≤ now
  | some _ => false

section

variable {A B : Type} (lib : Library A B)

def staticKey (algorithm secret : String) (h : Header Method) : Option (VerifyKey B) :=
  if h.method.alg ≠ algorithm then none
  else if expectedFamily algorithm = some h.method.family then verifyKey lib.x509 algorithm secret
  else none

def remoteKey (jwksURL : String) (h : Header Method) : Option (VerifyKey B) :=
  if h.method.family = .rsa then h.kid.bind fun kid => (lib.jwks jwksURL kid).map .key
  else none

/-- The parser that `newParser` returns. -/
def newParser (now : ℤ) (jwksURL algorithm secret : String) : TokenParser := fun t =>
  match lib.scheme.parse
    (if jwksURL ≠ "" then remoteKey lib jwksURL else staticKey lib algorithm secret)
    (timely now) t with
  | some claims => .ok claims
  | none => .error "token signature is invalid"

def signToken (secret algorithm : String) (claims : MapClaims) : Option String := do
  let key ← signingKey lib.x509 algorithm secret
  lib.scheme.sign (signingMethod algorithm) key claims

end

def Method.Static (m : Method) : Prop := expectedFamily m.alg = some m.family

instance (m : Method) : Decidable m.Static := inferInstanceAs (Decidable (_ = _))

lemma alg_signingMethod {m : Method} (h : m.Static) : signingMethod m.alg = m := by
  cases m <;> first | rfl | exact absurd h (by decide)

lemma verifyKey_of_not_static {A B : Type} (x : X509 A B) {m : Method} (h : ¬m.Static)
    (secret : String) : verifyKey x m.alg secret = none := by
  cases m <;> first | rfl | exact absurd (by decide) h

section

variable {A B : Type} (lib : Library A B)

lemma newParser_ok_iff (now : ℤ) (jwksURL algorithm secret : String) (t : String)
    (claims : MapClaims) :
    newParser lib now jwksURL algorithm secret t = .ok claims ↔
      lib.scheme.parse
        (if jwksURL ≠ "" then remoteKey lib jwksURL else staticKey lib algorithm secret)
        (timely now) t = some claims := by
  unfold newParser
  split
  · rename_i c hc
    rw [hc]
    simp
  · rename_i hc
    rw [hc]
    simp

lemma staticKey_eq (algorithm secret : String) (m : Method) (kid : Option String) :
    staticKey lib algorithm secret ⟨m,kid⟩ =
      if m.alg = algorithm then verifyKey lib.x509 algorithm secret else none := by
  by_cases h : m.alg = algorithm
  · subst h
    by_cases ht : m.Static
    · simp only [staticKey, ne_eq, not_true_eq_false, if_false, if_true]
      exact if_pos ht
    · simp only [staticKey, ne_eq, not_true_eq_false, verifyKey_of_not_static lib.x509 ht, ite_self]
  · simp [staticKey, h]

lemma staticKey_some {algorithm secret : String} {hd : Header Method} {v : VerifyKey B}
    (h : staticKey lib algorithm secret hd = some v) :
    hd.method.Static ∧ hd.method.alg = algorithm := by
  unfold staticKey at h
  split_ifs at h with hl ha
  rw [not_not] at hl
  subst hl
  exact ⟨ha,rfl⟩

lemma newParser_alg {now : ℤ} {algorithm secret t : String} {claims : MapClaims}
    (h : newParser lib now "" algorithm secret t = .ok claims) :
    ∃ m : Method, m.Static ∧ m.alg = algorithm := by
  rw [newParser_ok_iff, if_neg (by simp)] at h
  simp only [Scheme.parse, Option.bind_eq_bind, Option.bind_eq_some_iff] at h
  obtain ⟨⟨⟨m,kid⟩,p⟩,-,v,hv,-⟩ := h
  have ht := staticKey_some lib hv
  exact ⟨m,ht⟩

lemma newParser_sign (now : ℤ) (jwksURL algorithm secret : String) {m : Method}
    {k : SigningKey A} {p q : MapClaims} {t : String} (h : lib.scheme.sign m k p = some t) :
    newParser lib now jwksURL algorithm secret t = .ok q ↔
      q = p ∧ timely now p ∧ jwksURL = "" ∧ m.alg = algorithm ∧
        ∃ v ∈ verifyKey lib.x509 algorithm secret, lib.scheme.pairs m k v := by
  rw [newParser_ok_iff, lib.scheme.parse_sign _ _ h]
  by_cases hj : jwksURL = ""
  · rw [if_neg (not_not.mpr hj), staticKey_eq]
    by_cases hm : m.alg = algorithm
    · simp [hj, hm]
    · simp [hm]
  · have he : remoteKey lib jwksURL ⟨m,none⟩ = none := by simp [remoteKey]
    rw [if_pos hj, he]
    simp [hj]

end

end SdkApi.TokenSigning
