import SdkApi.SsrfProtection
import SdkApi.LexicalPaths

/-!
# The URL that the client sends

`DoURL` takes a URL apart and builds another one from its scheme, its host and
its cleaned path. The encoding of paths, the parser of URLs and the request
that is read from a URL are outside; what is documented of them is assumed.
-/

namespace SdkApi.SafeRequests
open GoStrings IpNetworks SsrfGuard SsrfProtection List
open LexicalPaths (Plain clean_of_rooted clean_clean_rooted joined rooted)

/-- The default encoding of a path. -/
structure Encoding where
  escape : String → String
  unescape : String → String
  unescape_empty : unescape "" = ""
  unescape_escape : ∀ p, unescape (escape p) = p
  rooted_escape : ∀ p, rooted (escape p).toList = rooted p.toList
  rooted_unescape : ∀ p, rooted (unescape p).toList = rooted p.toList

/-- A parsed URL with a host, with `EscapedPath()` and `RawQuery`. -/
structure GivenURL (E : Encoding) extends URL where
  escapedPath : String
  rawQuery : String
  decoded : E.unescape escapedPath = path
  absolute : path = "" ∨ rooted path.toList = true

structure Request where
  scheme : String
  host : String
  path : String
  query : String
  hostHeader : String

/-- The path in `String()` of a URL with a host. -/
def Encoding.pathText (E : Encoding) (path : String) : String :=
  (if E.escape path ≠ "" ∧ ¬rooted (E.escape path).toList then "/" else "") ++ E.escape path

/-- What the transport reads in a request for a URL without a query. -/
structure Transport (E : Encoding) (lib : Library) where
  read : String → Request
  reads : ∀ {method scheme host path r}, lib.newRequest method scheme host path = .ok r →
    read r = ⟨scheme, host, E.pathText path, "", host⟩
  clean : ∀ p, lib.clean p = .ofList (LexicalPaths.clean p.toList)

section

variable {E : Encoding} {lib : Library}

/-- With `req.Host = host`. -/
def Transport.sent (T : Transport E lib) (u : URL) (r : String) : Request :=
  { T.read r with hostHeader := u.hostname }

def GivenURL.authority (u : GivenURL E) : String :=
  if u.port = "" ∧ ':' ∈ u.hostname.toList then "[" ++ u.hostname ++ "]" else u.safeHost

def GivenURL.request (u : GivenURL E) : Request :=
  ⟨toLower u.scheme, u.authority, u.escapedPath, u.rawQuery, u.authority⟩

/-- No query and no port, and a path of names in its default encoding. -/
structure Simple (u : GivenURL E) : Prop where
  query : u.rawQuery = ""
  port : u.port = ""
  host : ':' ∉ u.hostname.toList
  names : ∃ ss : List (List Char), (∀ s ∈ ss, Plain s) ∧ u.path = .ofList ('/'::joined ss)
  encoded : u.escapedPath = E.escape u.path

lemma authority_eq_iff (u : GivenURL E) :
    u.hostname = u.authority ↔ u.port = "" ∧ ':' ∉ u.hostname.toList := by
  have hl : ∀ {a b : String}, a.toList.length ≠ b.toList.length → a ≠ b := fun h he => h (he ▸ rfl)
  unfold GivenURL.authority URL.safeHost joinHostPort
  split_ifs with h hp hc
  · exact iff_of_false (hl (by simp; omega)) fun hn => hn.2 h.2
  · exact iff_of_false (hl (by simp; omega)) fun hn => hp hn.1
  · exact iff_of_false (hl (by simp)) fun hn => hp hn.1
  · exact iff_of_true rfl ⟨not_not.mp hp, fun hc => h ⟨not_not.mp hp, hc⟩⟩

lemma pathText_rooted {path : String} (h : rooted path.toList) :
    E.pathText path = E.escape path := by
  rw [Encoding.pathText, if_neg (by simp [E.rooted_escape, h]), String.empty_append]

lemma rooted_pathText_dot : rooted (E.pathText ".").toList := by
  have hn : E.escape "." ≠ "" := fun h => by
    have hu := E.unescape_escape "."
    rw [h, E.unescape_empty] at hu
    exact absurd hu (by decide)
  have hr : ¬rooted (E.escape ".").toList := by
    rw [E.rooted_escape]
    decide
  rw [Encoding.pathText, if_pos ⟨hn, hr⟩]
  simp [rooted]

lemma path_eq_iff (u : GivenURL E) :
    E.pathText (.ofList (LexicalPaths.clean u.path.toList)) = u.escapedPath ↔
      (∃ ss : List (List Char), (∀ s ∈ ss, Plain s) ∧ u.path = .ofList ('/'::joined ss)) ∧
        u.escapedPath = E.escape u.path := by
  constructor
  · intro h
    have hd := u.decoded
    have hr : rooted u.path.toList := by
      rcases u.absolute with hp | hp
      · -- the empty path becomes a dot behind a slash
        rw [← hd, E.rooted_unescape, ← h, hp]
        exact rooted_pathText_dot
      · exact hp
    obtain ⟨ss, hs, hc⟩ := clean_of_rooted hr
    rw [hc, pathText_rooted (by simp [rooted])] at h
    rw [← h, E.unescape_escape] at hd
    exact ⟨⟨ss, hs, hd.symm⟩, by rw [← h, hd]⟩
  · rintro ⟨⟨ss, hs, hp⟩, he⟩
    rw [he, hp, String.toList_ofList, clean_clean_rooted hs, pathText_rooted (by simp [rooted])]

/-- A URL that is not refused is sent as it was given exactly if it is simple. -/
theorem doURL_keeps_url_iff {cfg : SSRFConfig} {answer : Option (List Addr)}
    {urlStr method r : String} (T : Transport E lib) (u : GivenURL E)
    (hu : lib.parseURL urlStr = .ok u.toURL)
    (h : doURL lib cfg answer urlStr method = .request r) :
    T.sent u.toURL r = u.request ↔ Simple u := by
  obtain ⟨-, -, -, hn⟩ := (doURL_request_iff hu answer r).mp h
  have ht : T.sent u.toURL r =
      ⟨toLower u.scheme, u.safeHost, E.pathText (.ofList (LexicalPaths.clean u.path.toList)), "",
        u.hostname⟩ := by
    rw [Transport.sent, T.reads hn, T.clean]
  rw [ht, GivenURL.request, Request.mk.injEq, path_eq_iff, authority_eq_iff]
  constructor
  · rintro ⟨-, -, hp, hq, hh⟩
    exact ⟨hq.symm, hh.1, hh.2, hp.1, hp.2⟩
  · rintro ⟨hq, hp, hh, hs, he⟩
    refine ⟨rfl, ?_, ⟨hs, he⟩, hq.symm, hp, hh⟩
    rw [GivenURL.authority, if_neg fun hc => hh hc.2]

end

/-- A path that is its own encoding. -/
def verbatim : Encoding := ⟨id, id, rfl, fun _ => rfl, fun _ => rfl, fun _ => rfl⟩

/-- A library for which every text is the URL `u`, and which sends what is built from it. -/
def parsing (u : URL) : Library where
  __ := plainLibrary "" ""
  parseURL := fun _ => .ok u
  clean p := .ofList (LexicalPaths.clean p.toList)
  newRequest _ scheme host path :=
    if scheme = toLower u.scheme ∧ host = u.safeHost ∧
        path = .ofList (LexicalPaths.clean u.path.toList) then .ok u.hostname
    else .error "another URL"

def transport (E : Encoding) (u : URL) : Transport E (parsing u) where
  read _ := ⟨toLower u.scheme, u.safeHost,
    E.pathText (.ofList (LexicalPaths.clean u.path.toList)), "", u.safeHost⟩
  reads := by
    intro _ scheme host path r h
    simp only [parsing] at h
    split_ifs at h with hs
    rw [hs.1, hs.2.1, hs.2.2]
  clean _ := rfl

def given (port path query : String) (h : path = "" ∨ rooted path.toList = true) :
    GivenURL verbatim :=
  ⟨⟨"http", "h", port, path⟩, path, query, rfl, h⟩

def plainURL : GivenURL verbatim := given "" "/a" "" (.inr rfl)

theorem doURL_keeps_url_plain :
    (transport verbatim plainURL.toURL).sent plainURL.toURL "h" = plainURL.request :=
  (@doURL_keeps_url_iff verbatim (parsing plainURL.toURL) { allowAll := true } none "http://h/a"
    "GET" "h" (transport _ _) plainURL rfl (by decide)).mpr ⟨rfl, rfl, by decide, ⟨[['a']],
      by simpa using ⟨by decide, by decide, by decide, by decide⟩, rfl⟩, rfl⟩

def Changed (u : GivenURL verbatim) : Prop :=
  doURL (parsing u.toURL) { allowAll := true } none "" "GET" = .request "h" ∧
    (transport verbatim u.toURL).sent u.toURL "h" ≠ u.request

/-- The query, a slash at the end, an empty path and a port. -/
theorem doURL_changes_url :
    Changed (given "" "/" "a=b" (.inr rfl)) ∧ Changed (given "" "/a/" "" (.inr rfl)) ∧
      Changed (given "" "" "" (.inl rfl)) ∧ Changed (given "80" "/" "" (.inr rfl)) := by
  simp only [Changed, Ne, Transport.sent, transport, GivenURL.request, Request.mk.injEq]
  decide

end SdkApi.SafeRequests
