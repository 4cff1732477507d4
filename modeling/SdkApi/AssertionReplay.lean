import SdkApi.OAuthStore

/-!
# Replayed client assertions

The id of an assertion is kept with the text of its expiry. The first row of an
id stays as it is whatever the store is asked to do afterwards, so that its
expiry decides about every later assertion with the same id.
-/

namespace SdkApi.AssertionReplay
open UniqueRows Timestamps OAuthStore

variable {S F : Type}

def jtiRow (jti : String) (db : Database) : Option JtiRow := find JtiRow.jti jti db.jtis

def keptExpiry (jti : String) (exp : Instant) (db : Database) : List Char :=
  (jtiRow jti db).elim exp.text JtiRow.expiresAt

lemma valid_eq_known (now : Instant) (failed : Bool) (jti : String) (db : Database) :
    clientAssertionJWTValid now failed jti db = .error .jtiKnown ↔
      failed = false ∧ ∃ row ∈ jtiRow jti db, now.text < row.expiresAt := by
  have ha := any_of_key (fun r => decide (now.text < r.expiresAt)) jti db.jtisUnique
  unfold clientAssertionJWTValid
  rw [ha]
  cases ho : find JtiRow.jti jti db.jtis with
  | none | some row => simp [jtiRow, ho]

lemma jtiRow_set (jti : String) (exp : Instant) (db : Database) :
    jtiRow jti (setClientAssertionJWT jti exp db).1 =
      some ((jtiRow jti db).elim ⟨jti,exp.text⟩ id) := by
  have hk : ∀ old _new : JtiRow, old.jti = old.jti := fun _ _ => rfl
  exact find_upsert_self hk ⟨jti,exp.text⟩ db.jtis

lemma jtis_resign (requestID signature : String) (db : Database) :
    (resign requestID signature db).1.jtis = db.jtis := by
  unfold resign
  split <;> rfl

variable (e : Engine) {db : Database} {jti : String} {row : JtiRow}

lemma jtiRow_perform (j : Json S F) (call : Call S F) (h : jtiRow jti db = some row) :
    jtiRow jti (perform e j db call) = some row := by
  cases call with
  | rotateRefreshToken requestID signature =>
    have ht : (perform e j db (.rotateRefreshToken requestID signature)).jtis = db.jtis := by
      simp only [perform, rotateRefreshToken, jtis_resign]
      split_ifs <;> rfl
    rw [jtiRow, ht]
    exact h
  | setClientAssertionJWT jti' exp =>
    by_cases hj : jti = jti'
    · subst hj
      show jtiRow jti (setClientAssertionJWT jti exp db).1 = some row
      rw [jtiRow_set, h]
      rfl
    · have hk : ∀ old _new : JtiRow, old.jti = old.jti := fun _ _ => rfl
      exact (find_upsert_other hk ⟨jti',exp.text⟩ db.jtis hj).trans h
  | saveSession now signature stype req | createOpenIDConnectSession now signature req
  | invalidateAuthorizeCodeSession code | revokeRefreshToken requestID
  | revokeAccessToken requestID | deleteSession signature stype => exact h

lemma jtiRow_performed (j : Json S F) (calls : List (Call S F)) (h : jtiRow jti db = some row) :
    jtiRow jti (calls.foldl (perform e j) db) = some row := by
  induction calls generalizing db with
  | nil => exact h
  | cons call calls ih => exact ih (jtiRow_perform e j call h)

lemma valid_after_set (j : Json S F) (jti : String) (exp : Instant) (db : Database)
    (calls : List (Call S F)) (now : Instant) (failed : Bool) :
    clientAssertionJWTValid now failed jti
        (calls.foldl (perform e j) (setClientAssertionJWT jti exp db).1) = .error .jtiKnown ↔
      failed = false ∧ now.text < keptExpiry jti exp db := by
  have ho := jtiRow_performed e j calls (jtiRow_set jti exp db)
  rw [valid_eq_known, ho, keptExpiry]
  cases jtiRow jti db with
  | none => simp
  | some row => simp

/-- Replays before the expiry of an id are refused exactly when the query does
not fail and the text of the instant is before the text of the expiry that the
table kept. For a new id this is a comparison of whole seconds, as long as years
have four digits. -/
theorem replay_refused_iff (e : Engine) (j : Json S F) (jti : String) (exp : Instant)
    (db : Database) (calls : List (Call S F)) (now : Instant) (failed : Bool) :
    ((now.before exp → clientAssertionJWTValid now failed jti
        (calls.foldl (perform e j) (setClientAssertionJWT jti exp db).1) = .error .jtiKnown) ↔
      (now.before exp → failed = false ∧ now.text < keptExpiry jti exp db)) ∧
    (FourDigits now → FourDigits exp → jtiRow jti db = none →
      (now.text < keptExpiry jti exp db ↔ now.clock < exp.clock)) := by
  constructor
  · rw [valid_after_set]
  · intro ho he hn
    rw [keptExpiry, hn]
    exact text_lt_iff ho he

/-- An id that is used again after its first expiry is not protected by its
second one, and in the last second before an expiry no id is. -/
theorem replay_accepted :
    (newYear 9 7 0 0).before (newYear 9 10 0 0) ∧
    clientAssertionJWTValid (newYear 9 7 0 0) false "a"
      ([Call.setClientAssertionJWT "a" (newYear 9 10 0 0)].foldl (perform stableEngine plainJson)
        (setClientAssertionJWT "a" (newYear 9 5 0 0) emptyStore).1) = .ok () ∧
    (newYear 9 5 0 200000000).before (newYear 9 5 0 900000000) ∧
    clientAssertionJWTValid (newYear 9 5 0 200000000) false "a"
      (setClientAssertionJWT "a" (newYear 9 5 0 900000000) emptyStore).1 = .ok () := by
  decide

end SdkApi.AssertionReplay
