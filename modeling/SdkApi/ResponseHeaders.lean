import SdkApi.GoStrings
import Mathlib.Logic.Function.Basic

/-!
# Security headers

`SecurityHeaders` sets one header after the other in the response, those
without a value being left out. A group of the configuration has the headers
of the server with a content security policy of its own, which is never empty.
A group that runs behind another one therefore leaves nothing of it.
-/

namespace SdkApi.ResponseHeaders
open List Function

abbrev Headers := String → Option String

section

def setAll (kvs : List (String × String)) (h : Headers) : Headers :=
  kvs.foldl (fun h kv => Function.update h kv.1 (some kv.2)) h

variable {kvs kvs' : List (String × String)} {h h' : Headers} {k : String}

lemma setAll_of_not_mem (hk : k ∉ kvs.map Prod.fst) : setAll kvs h k = h k := by
  induction kvs generalizing h with
  | nil => rfl
  | cons kv kvs ih =>
    rw [map_cons, mem_cons, not_or] at hk
    rw [setAll, foldl_cons, ← setAll, ih hk.2, update_of_ne hk.1]

lemma setAll_of_mem (hk : k ∈ kvs.map Prod.fst) : setAll kvs h k = setAll kvs h' k := by
  induction kvs generalizing h h' with
  | nil => cases hk
  | cons kv kvs ih =>
    rw [setAll, setAll, foldl_cons, foldl_cons, ← setAll, ← setAll]
    by_cases hm : k ∈ kvs.map Prod.fst
    · exact ih hm
    · -- The last write to this name is the first of the list.
      have he : k = kv.1 := (mem_cons.mp hk).resolve_right hm
      rw [setAll_of_not_mem hm, setAll_of_not_mem hm, he, update_self, update_self]

lemma setAll_setAll (hk : ∀ k ∈ kvs.map Prod.fst, k ∈ kvs'.map Prod.fst) :
    setAll kvs' (setAll kvs h) = setAll kvs' h := by
  funext k
  by_cases hm : k ∈ kvs'.map Prod.fst
  · exact setAll_of_mem hm
  · rw [setAll_of_not_mem hm, setAll_of_not_mem hm, setAll_of_not_mem (mt (hk k) hm)]

end

structure CSPConfig where
  level : String := "basic"
  defaultSrc : List String := []
  scriptSrc : List String := []
  styleSrc : List String := []
  imgSrc : List String := []
  connectSrc : List String := []
  fontSrc : List String := []
  frameSrc : List String := []
  frameAncestors : List String := []
  objectSrc : List String := []
  baseURI : List String := []
  formAction : List String := []
  upgradeInsecureReq : Bool := false

def joinDirective (name : String) (values : List String) (defaults : String) : String :=
  if values = [] then if defaults = "" then "" else name ++ " " ++ defaults ++ "; "
  else values.foldl (fun joined v => joined ++ " " ++ v) name ++ "; "

def buildStrictCSP : String :=
  "default-src 'none'; script-src 'strict-dynamic' 'unsafe-inline' https:; " ++
  "style-src 'self' 'unsafe-inline'; img-src 'self' data: https:; font-src 'self'; " ++
  "connect-src 'self'; base-uri 'self'; form-action 'self'; frame-ancestors 'none'; " ++
  "upgrade-insecure-requests"

def directives (cfg : CSPConfig) : String :=
  joinDirective "default-src" cfg.defaultSrc "'self'" ++
  joinDirective "script-src" cfg.scriptSrc "'self'" ++
  joinDirective "style-src" cfg.styleSrc "'self' 'unsafe-inline'" ++
  joinDirective "img-src" cfg.imgSrc "'self' data: https:" ++
  joinDirective "connect-src" cfg.connectSrc "'self'" ++
  joinDirective "font-src" cfg.fontSrc "'self'" ++
  joinDirective "frame-src" cfg.frameSrc "'none'" ++
  joinDirective "frame-ancestors" cfg.frameAncestors "'none'" ++
  joinDirective "object-src" cfg.objectSrc "'none'" ++
  joinDirective "base-uri" cfg.baseURI "'self'" ++
  joinDirective "form-action" cfg.formAction "'self'" ++
  (if cfg.upgradeInsecureReq then "upgrade-insecure-requests; " else "")

def buildCustomCSP (cfg : CSPConfig) : String :=
  let policy := (directives cfg).toList
  if 2 < policy.length then String.ofList (policy.take (policy.length-2)) else String.ofList policy

def buildCSP (cfg : CSPConfig) : String :=
  if cfg.level = "strict" then buildStrictCSP else buildCustomCSP cfg

lemma joinDirective_length (name : String) (values : List String) {defaults : String}
    (hd : defaults ≠ "") :
    name.toList.length ≤ (joinDirective name values defaults).toList.length := by
  have ho : ∀ (values : List String) (joined : String), joined.toList.length ≤
      (values.foldl (fun joined v => joined ++ " " ++ v) joined).toList.length := by
    intro values
    induction values with
    | nil => exact fun joined => le_rfl
    | cons v values ih =>
      intro joined
      refine le_trans ?_ (ih _)
      simp only [String.toList_append, length_append]
      omega
  unfold joinDirective
  split_ifs
  · simp only [String.toList_append, length_append]
    omega
  · have := ho values name
    simp only [String.toList_append, length_append]
    omega

lemma buildCSP_ne (cfg : CSPConfig) : buildCSP cfg ≠ "" := by
  unfold buildCSP
  split_ifs
  · decide
  · have hl : 2 < (directives cfg).toList.length := by
      have he := joinDirective_length "default-src" cfg.defaultSrc (by decide : "'self'" ≠ "")
      have : "default-src".toList.length = 11 := rfl
      simp only [directives, String.toList_append, length_append]
      omega
    intro h
    have hn := congrArg String.toList h
    simp only [buildCustomCSP, if_pos hl, String.toList_ofList] at hn
    have := congrArg List.length hn
    simp only [length_take, String.toList_empty, length_nil] at this
    omega

structure SecurityHeadersConfig where
  frameOptions : String := ""
  referrerPolicy : String := ""
  permissionsPolicy : String := ""
  hsts : Bool := false
  hstsMaxAge : ℤ := 0
  hstsIncludeSubs : Bool := false
  csp : String := ""
  coop : String := ""
  coep : String := ""
  corp : String := ""
  cacheControl : String := ""

def hstsValue (maxAge : ℤ) (includeSubs : Bool) : String :=
  "max-age=" ++ toString maxAge ++ if includeSubs then "; includeSubDomains" else ""

def unlessEmpty (name value : String) : List (String × String) :=
  if value = "" then [] else [(name,value)]

def settings (cfg : SecurityHeadersConfig) : List (String × String) :=
  ("X-Content-Type-Options","nosniff")::unlessEmpty "X-Frame-Options" cfg.frameOptions++
  unlessEmpty "Referrer-Policy" cfg.referrerPolicy++
  unlessEmpty "Permissions-Policy" cfg.permissionsPolicy++
  unlessEmpty "Content-Security-Policy" cfg.csp++
  (if cfg.hsts then
    [("Strict-Transport-Security",hstsValue cfg.hstsMaxAge cfg.hstsIncludeSubs)] else [])++
  unlessEmpty "Cross-Origin-Opener-Policy" cfg.coop++
  unlessEmpty "Cross-Origin-Embedder-Policy" cfg.coep++
  unlessEmpty "Cross-Origin-Resource-Policy" cfg.corp++
  unlessEmpty "Cache-Control" cfg.cacheControl

def securityHeaders (cfg : SecurityHeadersConfig) (h : Headers) : Headers := setAll (settings cfg) h

def withCSP (cfg : SecurityHeadersConfig) (csp : CSPConfig) : SecurityHeadersConfig :=
  { cfg with csp := buildCSP csp }

lemma settings_names (cfg : SecurityHeadersConfig) (a b : CSPConfig) :
    (settings (withCSP cfg a)).map Prod.fst = (settings (withCSP cfg b)).map Prod.fst := by
  have hcs : ∀ c, (unlessEmpty "Content-Security-Policy" (buildCSP c)).map Prod.fst =
      ["Content-Security-Policy"] := by simp [unlessEmpty, buildCSP_ne]
  simp only [settings, withCSP, map_append, map_cons, hcs]
  rfl

lemma securityHeaders_last (cfg : SecurityHeadersConfig) (a b : CSPConfig) (h : Headers) :
    securityHeaders (withCSP cfg b) (securityHeaders (withCSP cfg a) h) =
      securityHeaders (withCSP cfg b) h :=
  setAll_setAll fun _ hk => settings_names cfg a b ▸ hk

end SdkApi.ResponseHeaders
