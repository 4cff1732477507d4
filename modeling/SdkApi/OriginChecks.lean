import Mathlib.Data.List.TakeWhile

/-!
# The origin of a referer

`IsSameOrigin` compares a parsed referer with the host of the request, which it
splits at the last colon. A literal with colons keeps its brackets there, while
`Hostname` removes them, and the request's port is normalized without a scheme.
-/

namespace SdkApi.OriginChecks
open List

/-- A parsed referer: `Scheme`, `Hostname()` without brackets around it, and `Port()`. -/
structure Referer where
  scheme : String
  hostname : String
  port : String
  bare : hostname.toList.head? ≠ some '['

/-- `url.Parse`; the empty text names no host. -/
structure Parser where
  parse : String → Option Referer
  empty : ∀ u, parse "" = some u → u.hostname = ""

/-- The simple case folding of characters, which only folds letters. -/
structure Folding where
  fold : Char → Char
  bracket : ∀ c, fold c = fold '[' → c = '['

/-- The host of a request, and its port if it is not empty. -/
structure Authority where
  host : String
  port : String
  named : host ≠ ""
  plain : ':' ∉ port.toList

/-- A literal with colons is written in brackets. -/
def Authority.text (r : Authority) : String :=
  (if ':' ∈ r.host.toList then "[" ++ r.host ++ "]" else r.host) ++
    if r.port = "" then "" else ":" ++ r.port

/-- At the last colon. -/
def splitHostPort (host : String) : String × String :=
  match host.toList.reverse.dropWhile (· ≠ ':') with
  | [] => (host, "")
  | _::rest => (.ofList rest.reverse, .ofList (host.toList.reverse.takeWhile (· ≠ ':')).reverse)

def normalizePort (port scheme : String) : String :=
  if port = "" then ""
  else if port = "80" ∧ (scheme = "" ∨ scheme = "http") then ""
  else if port = "443" ∧ scheme = "https" then ""
  else port

section

variable (F : Folding) (U : Parser)

def equalFold (s t : String) : Bool := s.toList.map F.fold = t.toList.map F.fold

def isSameOrigin (referer requestHost : String) : Bool :=
  if referer = "" ∨ requestHost = "" then false
  else
    match U.parse referer with
    | none => false
    | some u =>
      if u.hostname = "" then false
      else
        let (reqHost, reqPort) := splitHostPort requestHost
        equalFold F u.hostname reqHost &&
          normalizePort u.port u.scheme = normalizePort reqPort ""

def effectivePort (scheme port : String) : String :=
  if port = "" then if scheme = "https" then "443" else "80" else port

def Web (u : Referer) : Prop := u.scheme = "http" ∨ u.scheme = "https"

def SameOrigin (u : Referer) (r : Authority) : Prop :=
  Web u ∧ equalFold F u.hostname r.host = true ∧
    effectivePort u.scheme u.port = effectivePort u.scheme r.port

/-- For a referer that names the host of the request: a literal has another port or another
scheme, a request for port 80 or 443 is not answered wrongly over https, and another scheme
goes with another port. -/
structure Covered (u : Referer) (r : Authority) : Prop where
  literal : ':' ∈ r.host.toList → Web u →
    effectivePort u.scheme u.port ≠ effectivePort u.scheme r.port
  https : ':' ∉ r.host.toList → u.scheme = "https" →
    (r.port = "80" → u.port ∉ ["", "80", "443"]) ∧ (r.port = "443" → u.port ∉ ["", "443"])
  scheme : ':' ∉ r.host.toList → ¬Web u →
    normalizePort u.port u.scheme ≠ normalizePort r.port ""

variable {F U}

lemma splitHostPort_append {host port : String} (h : ':' ∉ port.toList) :
    splitHostPort (host ++ ":" ++ port) = (host, port) := by
  have hn : ∀ c ∈ port.toList.reverse, decide (c ≠ ':') := fun c hc =>
    decide_eq_true fun he => h (he ▸ mem_reverse.mp hc)
  have ha : (host ++ ":" ++ port).toList.reverse =
      port.toList.reverse++ ':'::host.toList.reverse := by simp
  rw [splitHostPort, ha, dropWhile_append_of_pos hn, takeWhile_append_of_pos hn]
  simp

lemma splitHostPort_plain {host : String} (h : ':' ∉ host.toList) :
    splitHostPort host = (host, "") := by
  have hn : ∀ c ∈ host.toList.reverse, decide (c ≠ ':') := fun c hc =>
    decide_eq_true fun he => h (he ▸ mem_reverse.mp hc)
  rw [splitHostPort, dropWhile_eq_nil_iff.mpr hn]

lemma splitHostPort_text {r : Authority} (h : ':' ∉ r.host.toList) :
    splitHostPort r.text = (r.host, r.port) := by
  rw [Authority.text, if_neg h]
  split_ifs with hp
  · rw [String.append_empty, splitHostPort_plain h, hp]
  · rw [← String.append_assoc, splitHostPort_append r.plain]

lemma head?_splitHostPort {host : String} {c : Char} (h : host.toList.head? = some c)
    (hc : c ≠ ':') : (splitHostPort host).1.toList.head? = some c := by
  obtain ⟨t, ht⟩ := head?_eq_some_iff.mp h
  rw [splitHostPort]
  cases hd : host.toList.reverse.dropWhile (· ≠ ':') with
  | nil => exact h
  | cons d rest =>
    -- what is dropped ends before the first character
    have hr : host.toList.reverse = t.reverse++[c] := by simp [ht]
    rw [hr, dropWhile_append] at hd
    cases hu : t.reverse.dropWhile (· ≠ ':') with
    | nil =>
      rw [hu] at hd
      simp [hc] at hd
    | cons x u =>
      rw [hu] at hd
      cases hd
      simp

lemma equalFold_literal {u : Referer} {r : Authority} (h : ':' ∈ r.host.toList) :
    equalFold F u.hostname (splitHostPort r.text).1 = false := by
  have hh : (splitHostPort r.text).1.toList.head? = some '[' :=
    head?_splitHostPort (by simp [Authority.text, h]) (by decide)
  rw [equalFold, decide_eq_false_iff_not]
  intro he
  have hm := congrArg head? he
  rw [head?_map, head?_map, hh, Option.map_some, Option.map_eq_some_iff] at hm
  obtain ⟨c, hc, hf⟩ := hm
  exact u.bare (F.bracket c hf ▸ hc)

lemma isSameOrigin_iff {referer : String} {u : Referer} (hu : U.parse referer = some u)
    (hr : referer ≠ "") (r : Authority) : isSameOrigin F U referer r.text = true ↔
      ':' ∉ r.host.toList ∧ equalFold F u.hostname r.host = true ∧
        normalizePort u.port u.scheme = normalizePort r.port "" := by
  have ht : r.text ≠ "" := by
    rw [Authority.text]
    split_ifs <;> simp [r.named]
  rw [isSameOrigin, if_neg (by simp [hr, ht]), hu]
  by_cases h : ':' ∈ r.host.toList
  · simp [h, equalFold_literal h]
  · by_cases hn : u.hostname = ""
    · simp [hn, equalFold, r.named]
    · simp [hn, h, splitHostPort_text h]

lemma normalizePort_eq_iff {u : Referer} {port : String} (h : Web u) :
    ((normalizePort u.port u.scheme = normalizePort port "") ↔
      (effectivePort u.scheme u.port = effectivePort u.scheme port)) ↔
    (u.scheme = "https" →
      (port = "80" → u.port ∉ ["", "80", "443"]) ∧ (port = "443" → u.port ∉ ["", "443"])) := by
  simp only [normalizePort, effectivePort, mem_cons, not_mem_nil, or_false]
  rcases h with h | h <;> grind

lemma equalFold_empty (r : Authority) : equalFold F "" r.host = false := by
  simp [equalFold, r.named]

/-- For the two normalizations of ports and the default port of a scheme. -/
lemma covered_iff {u : Referer} {r : Authority} :
    ((':' ∉ r.host.toList ∧ normalizePort u.port u.scheme = normalizePort r.port "") ↔
      (Web u ∧ effectivePort u.scheme u.port = effectivePort u.scheme r.port)) ↔
    Covered u r := by
  have hp := @normalizePort_eq_iff u r.port
  have hc : Covered u r ↔ _ ∧ _ ∧ _ := ⟨fun h => ⟨h.1, h.2, h.3⟩, fun h => ⟨h.1, h.2.1, h.2.2⟩⟩
  rw [hc]
  by_cases hw : Web u
  · by_cases hl : ':' ∈ r.host.toList
    · simp [hl, hw]
    · simpa [hl, hw] using hp hw
  · have hs : u.scheme ≠ "https" := fun h => hw (.inr h)
    simp [hw, hs]

/-- The check is exact for a referer and a request exactly if the referer does not parse,
names another host or is covered. -/
theorem isSameOrigin_exact_iff (F : Folding) (U : Parser) (referer : String) (r : Authority) :
    (isSameOrigin F U referer r.text = true ↔
      ∃ u, U.parse referer = some u ∧ SameOrigin F u r) ↔
    ∀ u, U.parse referer = some u → equalFold F u.hostname r.host = true → Covered u r := by
  cases hu : U.parse referer with
  | none => simp [isSameOrigin, hu]
  | some u =>
    simp only [Option.some.injEq, exists_eq_left', forall_eq']
    by_cases hr : referer = ""
    · have hn := U.empty u (hr ▸ hu)
      simp [isSameOrigin, SameOrigin, hr, hn, equalFold_empty]
    · rw [isSameOrigin_iff hu hr, SameOrigin]
      by_cases hh : equalFold F u.hostname r.host = true
      · simpa [hh] using covered_iff
      · simp [hh]

end

def always (u : Referer) : Parser := ⟨fun s => if s = "" then none else some u, by simp⟩

/-- Another scheme and another port pass, and the same origin does not. -/
theorem isSameOrigin_inexact :
    let F : Folding := ⟨id, fun _ h => h⟩
    isSameOrigin F (always ⟨"ftp", "h", "", by decide⟩) "ftp://h/" "h" = true ∧
    isSameOrigin F (always ⟨"https", "h", "", by decide⟩) "https://h/" "h:80" = true ∧
    isSameOrigin F (always ⟨"https", "h", "", by decide⟩) "https://h/" "h:443" = false ∧
    isSameOrigin F (always ⟨"http", "::1", "81", by decide⟩) "http://[::1]:81/" "[::1]:81" =
      false := by
  decide

end SdkApi.OriginChecks
