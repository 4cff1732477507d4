import SdkApi.IpNetworks
import SdkApi.GoStrings

/-!
# The HTTP client with a check of its targets

`DoURL` checks the host of a URL, builds a request of its own for it and hands
this to an ordinary client, which resolves the host again and follows
redirects. Resolver, servers and the parsers of `net/url` are outside: what
they answer is an input of a run.
-/

namespace SdkApi.SsrfGuard
open GoStrings IpNetworks

structure SSRFConfig where
  blockPrivate : Bool := false
  blockLoopback : Bool := false
  blockMetadata : Bool := false
  allowedHosts : List String := []
  allowAll : Bool := false

def privateRanges : List String := ["10.0.0.0/8","172.16.0.0/12","192.168.0.0/16","100.64.0.0/10"]

def loopbackRanges : List String := ["127.0.0.0/8","::1"]

def metadataRanges : List String := ["169.254.169.254/32"]

/-- A parsed URL: `Scheme`, `Hostname()`, `Port()` and `Path`. -/
structure URL where
  scheme : String
  hostname : String
  port : String
  path : String

/-- `newRequest` is the host that the transport reads in a request. -/
structure Library where
  parseURL : String → Except String URL
  parseIPv6 : List Char → Option (BitVec 128)
  format : Addr → String
  clean : String → String
  newRequest : String → String → String → String → Except String String

/-- A nil network is `none`. -/
structure Checker where
  privateRanges : List (Option Network)
  loopbackRanges : List (Option Network)
  metadataRanges : List (Option Network)
  allowedHosts : List String
  allowAll : Bool

inductive Verdict where
  | ok
  | error (message : String)
  | panic
  deriving DecidableEq

section

variable (lib : Library)

def Library.parseIP (s : String) : Option Addr := IpNetworks.parseIP lib.parseIPv6 s.toList

/-- The errors of `ParseCIDR` are discarded. -/
def networks (enabled : Bool) (ranges : List String) : List (Option Network) :=
  if enabled then ranges.map fun cidr => parseCIDR lib.parseIPv6 cidr.toList else []

/-- The checker of `NewSafeHTTPClient`. -/
def newChecker (cfg : SSRFConfig) : Checker where
  privateRanges := networks lib cfg.blockPrivate privateRanges
  loopbackRanges := networks lib cfg.blockLoopback loopbackRanges
  metadataRanges := networks lib cfg.blockMetadata metadataRanges
  allowedHosts := cfg.allowedHosts.map toLower
  allowAll := cfg.allowAll

/-- One loop of `validate`, with what follows it. -/
def checkRanges (label : String) (ip : Addr) : List (Option Network) → Verdict → Verdict
  | [], after => after
  | none::_, _ => .panic
  | some cidr::rest, after =>
    if cidr.contains ip then
      .error ("ssrf: request to "++label++" IP "++lib.format ip++" blocked")
    else checkRanges label ip rest after

/-- The three loops of `validate`. -/
def Checker.checkAddr (c : Checker) (ip : Addr) : Verdict :=
  checkRanges lib "private" ip c.privateRanges
    (checkRanges lib "loopback" ip c.loopbackRanges
      (checkRanges lib "metadata" ip c.metadataRanges .ok))

/-- Only the first address of the answer is looked at. -/
def Checker.validate (c : Checker) (host : String) (answer : Option (List Addr)) : Verdict :=
  if c.allowAll then .ok
  else if c.allowedHosts.contains (toLower host) then .ok
  else
    match lib.parseIP host with
    | some ip => c.checkAddr lib ip
    | none =>
      match answer with
      | none => .error ("ssrf: cannot resolve host "++host)
      | some [] => .ok
      | some (ip::_) => c.checkAddr lib ip

def joinHostPort (host port : String) : String :=
  if host.toList.contains ':' then "["++host++"]:"++port else host++":"++port

def URL.safeHost (u : URL) : String :=
  if u.port ≠ "" then joinHostPort u.hostname u.port else u.hostname

/-- `strings.Contains(path, "..")` -/
def traverses (path : String) : Bool := path.toList.tails.any ("..".toList.isPrefixOf ·)

inductive Sent where
  | refused (message : String)
  | panic
  | request (host : String)
  deriving DecidableEq

/-- `DoURL` up to the call of the client: the host of the request that it sends. -/
def doURL (cfg : SSRFConfig) (answer : Option (List Addr)) (urlStr method : String) : Sent :=
  match lib.parseURL urlStr with
  | .error e => .refused ("ssrf: parse url: "++e)
  | .ok u =>
    match (newChecker lib cfg).validate lib u.hostname answer with
    | .panic => .panic
    | .error message => .refused message
    | .ok =>
      let scheme := toLower u.scheme
      if scheme ≠ "http" ∧ scheme ≠ "https" then
        .refused ("ssrf: scheme \""++scheme++"\" not allowed")
      else if traverses u.path then .refused "ssrf: path traversal blocked"
      else
        match lib.newRequest method scheme u.safeHost (lib.clean u.path) with
        | .error e => .refused ("ssrf: new request: "++e)
        | .ok host => .request host

structure Lookup where
  answer : List Addr
  tried : List ℕ

structure Outside where
  checked : Option (List Addr)
  first : Lookup
  redirects : List (String × Lookup)

/-- The addresses that are dialled for a host. A literal is not looked up. -/
def dialled (host : String) (l : Lookup) : List Addr :=
  let addrs := match lib.parseIP host with
    | some ip => [ip]
    | none => l.answer
  l.tried.filterMap fun i => addrs[i]?

/-- The default policy of the client follows nine redirects. -/
def connections (cfg : SSRFConfig) (o : Outside) (urlStr method : String) : List Addr :=
  match doURL lib cfg o.checked urlStr method with
  | .request host =>
    dialled lib host o.first++(o.redirects.take 9).flatMap fun r => dialled lib r.1 r.2
  | _ => []

def privateNetworks : List Network :=
  [.v4 0x0a000000#32 8,.v4 0xac100000#32 12,.v4 0xc0a80000#32 16,.v4 0x64400000#32 10]

def loopbackNetwork : Network := .v4 0x7f000000#32 8

def metadataNetwork : Network := .v4 0xa9fea9fe#32 32

def Private (ip : Addr) : Prop := ∃ n ∈ privateNetworks, n.contains ip = true

def Loopback (ip : Addr) : Prop := loopbackNetwork.contains ip = true ∨ ip = .v6 1#128

def Metadata (ip : Addr) : Prop := metadataNetwork.contains ip = true

def Blocked (cfg : SSRFConfig) (ip : Addr) : Prop :=
  (cfg.blockPrivate = true ∧ Private ip) ∨ (cfg.blockLoopback = true ∧ Loopback ip) ∨
    (cfg.blockMetadata = true ∧ Metadata ip)

instance (ip : Addr) : Decidable (Private ip) :=
  inferInstanceAs (Decidable (∃ n ∈ privateNetworks, n.contains ip = true))

instance (ip : Addr) : Decidable (Metadata ip) :=
  inferInstanceAs (Decidable (metadataNetwork.contains ip = true))

instance (ip : Addr) : Decidable (Loopback ip) :=
  inferInstanceAs (Decidable (loopbackNetwork.contains ip = true ∨ ip = .v6 1#128))

instance (cfg : SSRFConfig) (ip : Addr) : Decidable (Blocked cfg ip) :=
  inferInstanceAs (Decidable ((cfg.blockPrivate = true ∧ Private ip) ∨
    (cfg.blockLoopback = true ∧ Loopback ip) ∨ (cfg.blockMetadata = true ∧ Metadata ip)))

variable (lib : Library)

lemma networks_private : networks lib true privateRanges = privateNetworks.map some := rfl

lemma networks_loopback : networks lib true loopbackRanges = [some loopbackNetwork,none] := rfl

lemma checkRanges_some (label : String) (ip : Addr) (ns : List Network) (after : Verdict) :
    checkRanges lib label ip (ns.map some) after =
      if ∃ n ∈ ns, n.contains ip then
        .error ("ssrf: request to "++label++" IP "++lib.format ip++" blocked")
      else after := by
  induction ns with
  | nil => simp [checkRanges]
  | cons n ns ih =>
    simp only [List.map_cons, checkRanges, ih]
    by_cases hn : n.contains ip
    · simp [hn]
    · simp [hn]

variable (cfg : SSRFConfig) (ip : Addr)

lemma checkAddr_private (h : cfg.blockPrivate ∧ Private ip) :
    (newChecker lib cfg).checkAddr lib ip =
      .error ("ssrf: request to private IP "++lib.format ip++" blocked") := by
  simp only [Checker.checkAddr, newChecker, h.1, networks_private, checkRanges_some]
  exact if_pos h.2

section

variable (h : ¬(cfg.blockPrivate ∧ Private ip))
include h

lemma checkAddr_not_private :
    (newChecker lib cfg).checkAddr lib ip =
      checkRanges lib "loopback" ip (newChecker lib cfg).loopbackRanges
        (checkRanges lib "metadata" ip (newChecker lib cfg).metadataRanges .ok) := by
  unfold Checker.checkAddr
  cases hp : cfg.blockPrivate with
  | false => simp [newChecker, hp, networks, checkRanges]
  | true =>
    simp only [newChecker, hp, networks_private, checkRanges_some]
    exact if_neg fun hi => h ⟨hp,hi⟩

lemma checkAddr_loopback (hl : cfg.blockLoopback) :
    (newChecker lib cfg).checkAddr lib ip =
      if loopbackNetwork.contains ip then
        .error ("ssrf: request to loopback IP "++lib.format ip++" blocked")
      else .panic := by
  rw [checkAddr_not_private lib cfg ip h]
  simp only [newChecker, hl, networks_loopback, checkRanges]
  rfl

lemma checkAddr_metadata (hl : cfg.blockLoopback = false) :
    (newChecker lib cfg).checkAddr lib ip =
      if cfg.blockMetadata ∧ Metadata ip then
        .error ("ssrf: request to metadata IP "++lib.format ip++" blocked")
      else .ok := by
  rw [checkAddr_not_private lib cfg ip h]
  cases hm : cfg.blockMetadata with
  | false => simp [newChecker, hl, hm, networks, checkRanges]
  | true =>
    simp only [newChecker, hl, hm, networks, Bool.false_eq_true, if_false, checkRanges, true_and]
    rfl

end

lemma checkAddr_ok_iff :
    (newChecker lib cfg).checkAddr lib ip = .ok ↔ cfg.blockLoopback = false ∧ ¬Blocked cfg ip := by
  by_cases hp : cfg.blockPrivate ∧ Private ip
  · simp [checkAddr_private lib cfg ip hp, Blocked, hp]
  cases hl : cfg.blockLoopback with
  | true =>
    rw [checkAddr_loopback lib cfg ip hp hl]
    split_ifs <;> simp
  | false =>
    rw [checkAddr_metadata lib cfg ip hp hl]
    simp only [Blocked, hp, hl, false_or, Bool.false_eq_true, false_and, true_and]
    split_ifs with hm <;> simp [hm]

lemma checkAddr_panic_iff :
    (newChecker lib cfg).checkAddr lib ip = .panic ↔ cfg.blockLoopback ∧
      ¬(cfg.blockPrivate ∧ Private ip) ∧ loopbackNetwork.contains ip = false := by
  by_cases hp : cfg.blockPrivate ∧ Private ip
  · simp [checkAddr_private lib cfg ip hp, hp]
  cases hl : cfg.blockLoopback with
  | true =>
    rw [checkAddr_loopback lib cfg ip hp hl]
    cases hn : loopbackNetwork.contains ip with
    | true => simp
    | false => simp [hp]
  | false =>
    rw [checkAddr_metadata lib cfg ip hp hl]
    split_ifs <;> simp

end

end SdkApi.SsrfGuard
