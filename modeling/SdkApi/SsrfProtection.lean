import SdkApi.SsrfGuard

/-!
# What the check of targets protects from

The checker looks at one address of one lookup. It has a network missing when
loopback addresses are to be blocked, so then it lets no address pass: it
refuses or panics. Otherwise what is dialled later is up to the resolver and
the servers.
-/

namespace SdkApi.SsrfProtection
open GoStrings IpNetworks SsrfGuard List

def Excused (cfg : SSRFConfig) (host : String) : Prop :=
  cfg.allowAll = true ∨ toLower host ∈ cfg.allowedHosts.map toLower

section

variable (lib : Library) (cfg : SSRFConfig)

/-- The address that `validate` looks at. -/
def checkedAddr (host : String) (answer : Option (List Addr)) : Option Addr :=
  match lib.parseIP host with
  | some ip => some ip
  | none => answer.bind List.head?

variable (host : String) (answer : Option (List Addr))

lemma validate_excused (h : Excused cfg host) :
    (newChecker lib cfg).validate lib host answer = .ok := by
  unfold Checker.validate
  rcases h with ha | ho
  · exact if_pos ha
  · have hm : (newChecker lib cfg).allowedHosts.contains (toLower host) :=
      contains_iff_mem.mpr ho
    rw [hm]
    simp

lemma not_excused (h : ¬Excused cfg host) :
    (newChecker lib cfg).allowAll = false ∧
      (newChecker lib cfg).allowedHosts.contains (toLower host) = false := by
  refine ⟨Bool.eq_false_iff.mpr fun ha => h (.inl ha),Bool.eq_false_iff.mpr ?_⟩
  intro hc
  exact h (.inr (contains_iff_mem.mp hc))

lemma validate_cases (h : ¬Excused cfg host) :
    (∃ ip, checkedAddr lib host answer = some ip ∧
        (newChecker lib cfg).validate lib host answer = (newChecker lib cfg).checkAddr lib ip) ∨
      (checkedAddr lib host answer = none ∧ lib.parseIP host = none ∧ answer = some [] ∧
        (newChecker lib cfg).validate lib host answer = .ok) ∨
      (checkedAddr lib host answer = none ∧ lib.parseIP host = none ∧ answer = none ∧
        (newChecker lib cfg).validate lib host answer =
          .error ("ssrf: cannot resolve host "++host)) := by
  obtain ⟨ha,ho⟩ := not_excused lib cfg host h
  simp only [Checker.validate, ha, ho, Bool.false_eq_true, if_false, checkedAddr]
  cases hp : lib.parseIP host with
  | some ip => exact .inl ⟨ip,rfl,rfl⟩
  | none =>
    cases answer with
    | none => exact .inr (.inr ⟨rfl,rfl,rfl,rfl⟩)
    | some addrs =>
      cases addrs with
      | nil => exact .inr (.inl ⟨rfl,rfl,rfl,rfl⟩)
      | cons ip addrs => exact .inl ⟨ip,rfl,rfl⟩

lemma validate_ok_iff (h : ¬Excused cfg host) :
    (newChecker lib cfg).validate lib host answer = .ok ↔
      (lib.parseIP host = none ∧ answer = some []) ∨
        ∃ ip, checkedAddr lib host answer = some ip ∧ cfg.blockLoopback = false ∧
          ¬Blocked cfg ip := by
  rcases validate_cases lib cfg host answer h with ⟨ip,hi,hv⟩ | ⟨hi,hp,ha,hv⟩ | ⟨hi,hp,ha,hv⟩
  · have hn : ¬(lib.parseIP host = none ∧ answer = some []) := by
      rintro ⟨hp,rfl⟩
      simp [checkedAddr, hp] at hi
    rw [hv, checkAddr_ok_iff, hi]
    simp [hn]
  · rw [hv]
    exact iff_of_true rfl (.inl ⟨hp,ha⟩)
  · rw [hv, hi, ha]
    simp

lemma validate_panic_iff :
    (newChecker lib cfg).validate lib host answer = .panic ↔
      ¬Excused cfg host ∧ cfg.blockLoopback ∧ ∃ ip,
        checkedAddr lib host answer = some ip ∧ ¬(cfg.blockPrivate ∧ Private ip) ∧
          loopbackNetwork.contains ip = false := by
  by_cases h : Excused cfg host
  · simp [validate_excused lib cfg host answer h, h]
  rcases validate_cases lib cfg host answer h with ⟨ip,hi,hv⟩ | ⟨hi,-,-,hv⟩ | ⟨hi,-,-,hv⟩
  · rw [hv, checkAddr_panic_iff, hi]
    simp [h]
  · simp [hv, hi]
  · simp [hv, hi]

lemma ranges_present (hl : cfg.blockLoopback = false) :
    ∀ n ∈ (newChecker lib cfg).privateRanges++(newChecker lib cfg).loopbackRanges++
      (newChecker lib cfg).metadataRanges, n ≠ none := by
  have hi : ∀ n ∈ (newChecker lib cfg).privateRanges, n ≠ none := by
    cases hp : cfg.blockPrivate with
    | false => simp [newChecker, networks, hp]
    | true => simp [newChecker, hp, networks_private]
  have ht : ∀ n ∈ (newChecker lib cfg).metadataRanges, n ≠ none := by
    cases hm : cfg.blockMetadata with
    | false => simp [newChecker, networks, hm]
    | true =>
      intro n hn
      simp only [newChecker, hm] at hn
      cases hn with
      | head => exact Option.some_ne_none metadataNetwork
      | tail _ hn => cases hn
  have ho : (newChecker lib cfg).loopbackRanges = [] := by simp [newChecker, networks, hl]
  intro n hn
  rw [ho, append_nil, mem_append] at hn
  rcases hn with hn | hn
  · exact hi n hn
  · exact ht n hn

/-- The checker has all its networks and returns on every host exactly when
loopback addresses are not to be blocked; it panics on the addresses that the
ranges before the missing one do not contain. -/
theorem checker_complete_iff :
    (((∀ n ∈ (newChecker lib cfg).privateRanges++(newChecker lib cfg).loopbackRanges++
          (newChecker lib cfg).metadataRanges, n ≠ none) ∧
        (newChecker lib cfg).validate lib host answer ≠ .panic) ↔ cfg.blockLoopback = false) ∧
      ((newChecker lib cfg).validate lib host answer = .panic ↔
        ¬Excused cfg host ∧ cfg.blockLoopback = true ∧ ∃ ip,
          checkedAddr lib host answer = some ip ∧ ¬(cfg.blockPrivate = true ∧ Private ip) ∧
            loopbackNetwork.contains ip = false) := by
  refine ⟨?_,validate_panic_iff lib cfg host answer⟩
  cases hl : cfg.blockLoopback with
  | true =>
    have hn : none ∈ (newChecker lib cfg).loopbackRanges := by
      simp [newChecker, hl, networks_loopback]
    simp only [Bool.true_eq_false, iff_false]
    rintro ⟨ha,-⟩
    exact ha none (by simp [hn]) rfl
  | false =>
    refine iff_of_true ⟨ranges_present lib cfg hl,?_⟩ rfl
    rw [Ne, validate_panic_iff]
    simp [hl]

end

def plainLibrary (scheme host : String) : Library where
  parseURL := fun _ => .ok ⟨scheme,host,"","/"⟩
  parseIPv6 := fun _ => none
  format := fun _ => ""
  clean := id
  newRequest := fun _ _ host _ => .ok host

/-- A public address is enough to reach the missing network. -/
theorem loopback_check_panics :
    none ∈ (newChecker (plainLibrary "http" "example.com") { blockLoopback := true }).loopbackRanges ∧
      (newChecker (plainLibrary "http" "example.com") { blockLoopback := true }).validate
        (plainLibrary "http" "example.com") "example.com" (some [.v4 0x5db8d822#32]) = .panic := by
  decide

section

variable (lib : Library) (cfg : SSRFConfig)

/-- The part of `DoURL` after the check ends with a request. -/
def Sendable (u : URL) (method : String) : Prop :=
  (toLower u.scheme = "http" ∨ toLower u.scheme = "https") ∧ traverses u.path = false ∧
    ∃ host, lib.newRequest method (toLower u.scheme) u.safeHost (lib.clean u.path) = .ok host

/-- No connection of a call is made to a blocked address. -/
def Protected (o : Outside) (urlStr method : String) : Prop :=
  ∀ ip ∈ connections lib cfg o urlStr method, ¬Blocked cfg ip

variable {lib cfg} {urlStr method : String} {u : URL} {host : String} {o : Outside}

lemma doURL_request_iff (hu : lib.parseURL urlStr = .ok u) (answer : Option (List Addr))
    (host : String) :
    doURL lib cfg answer urlStr method = .request host ↔
      (newChecker lib cfg).validate lib u.hostname answer = .ok ∧
        (toLower u.scheme = "http" ∨ toLower u.scheme = "https") ∧ traverses u.path = false ∧
        lib.newRequest method (toLower u.scheme) u.safeHost (lib.clean u.path) = .ok host := by
  simp only [doURL, hu]
  cases hv : (newChecker lib cfg).validate lib u.hostname answer with
  | panic => simp
  | error e => simp
  | ok =>
    by_cases hs : toLower u.scheme ≠ "http" ∧ toLower u.scheme ≠ "https"
    · simp [hs]
    · have ho : toLower u.scheme = "http" ∨ toLower u.scheme = "https" := by
        by_contra hn
        exact hs (not_or.mp hn)
      simp only [if_neg hs, ho, true_and]
      cases ht : traverses u.path with
      | true => simp
      | false =>
        simp only [Bool.false_eq_true, if_false, true_and]
        cases lib.newRequest method (toLower u.scheme) u.safeHost (lib.clean u.path) with
        | error e | ok h => simp

lemma connections_of_request (h : doURL lib cfg o.checked urlStr method = .request host) :
    connections lib cfg o urlStr method =
      dialled lib host o.first++(o.redirects.take 9).flatMap fun r => dialled lib r.1 r.2 := by
  simp only [connections, h]

lemma protected_of_no_request (h : ∀ host, doURL lib cfg o.checked urlStr method ≠ .request host) :
    Protected lib cfg o urlStr method := by
  intro ip hi
  unfold connections at hi
  split at hi
  · rename_i host hq
    exact absurd hq (h host)
  · cases hi

lemma exists_blocked (h : cfg.blockPrivate ∨ cfg.blockLoopback ∨ cfg.blockMetadata) :
    ∃ host ip, lib.parseIP host = some ip ∧ Blocked cfg ip := by
  rcases h with hp | hl | hm
  · exact ⟨"10.0.0.1",.v4 0x0a000001#32,rfl,.inl ⟨hp,by decide⟩⟩
  · exact ⟨"127.0.0.1",.v4 0x7f000001#32,rfl,.inr (.inl ⟨hl,by decide⟩)⟩
  · exact ⟨"169.254.169.254",.v4 0xa9fea9fe#32,rfl,.inr (.inr ⟨hm,by decide⟩)⟩

lemma redirect_unprotected (hl : cfg.blockPrivate ∨ cfg.blockLoopback ∨ cfg.blockMetadata)
    {answer : Option (List Addr)} (h : doURL lib cfg answer urlStr method = .request host) :
    ∃ o, o.checked = answer ∧ ¬Protected lib cfg o urlStr method := by
  obtain ⟨target,ip,hi,hb⟩ := @exists_blocked lib cfg hl
  refine ⟨⟨answer,⟨[.v4 0x08080808#32],[0]⟩,[(target,⟨[],[0]⟩)]⟩,rfl,?_⟩
  intro ha
  apply ha ip _ hb
  rw [connections_of_request h]
  simp [dialled, hi]

section

variable (hu : lib.parseURL urlStr = .ok u) (he : ¬Excused cfg u.hostname) {o : Outside} {ip : Addr}
include hu he

lemma steady_protected (hip : checkedAddr lib u.hostname o.checked = some ip)
    (hn : o.redirects = []) (hm : ∀ a ∈ o.first.answer, a = ip)
    (ht : lib.newRequest method (toLower u.scheme) u.safeHost (lib.clean u.path) = .ok u.hostname) :
    Protected lib cfg o urlStr method := by
  by_cases hq : doURL lib cfg o.checked urlStr method = .request u.hostname
  · have hva := ((doURL_request_iff hu o.checked u.hostname).mp hq).1
    have hl : ¬Blocked cfg ip := by
      rcases (validate_ok_iff lib cfg _ _ he).mp hva with ⟨hp,ha⟩ | ⟨ip',hi',-,hl⟩
      · simp [checkedAddr, hp, ha] at hip
      · rw [hip] at hi'
        cases hi'
        exact hl
    intro a ha
    rw [connections_of_request hq, hn] at ha
    have hai : a = ip := by
      simp only [take_nil, flatMap_nil, append_nil, dialled, mem_filterMap] at ha
      obtain ⟨i,-,hi⟩ := ha
      cases hp : lib.parseIP u.hostname with
      | some ip' =>
        have hso : ip' = ip := by simpa [checkedAddr, hp] using hip
        rw [hp] at hi
        have hme := mem_of_getElem? hi
        rw [mem_singleton] at hme
        rw [hme, hso]
      | none =>
        rw [hp] at hi
        exact hm a (mem_of_getElem? hi)
    rw [hai]
    exact hl
  · apply protected_of_no_request
    intro host ho
    obtain ⟨-,-,-,hne⟩ := (doURL_request_iff hu o.checked host).mp ho
    rw [ht] at hne
    cases hne
    exact hq ho

lemma protected_iff (hg : cfg.blockPrivate ∨ cfg.blockLoopback ∨ cfg.blockMetadata) :
    (∀ o, Protected lib cfg o urlStr method) ↔
      ¬Sendable lib u method ∨ ∃ ip, lib.parseIP u.hostname = some ip ∧
        (cfg.blockLoopback ∨ Blocked cfg ip) := by
  constructor
  · intro hal
    by_contra ho
    simp only [not_or, not_not, not_exists, not_and, Bool.not_eq_true] at ho
    obtain ⟨⟨hm,ht,host,hn⟩,hi⟩ := ho
    -- a name passes when its lookup is empty, a literal that is not blocked always
    have ha : (newChecker lib cfg).validate lib u.hostname (some []) = .ok := by
      rw [validate_ok_iff lib cfg _ _ he]
      cases hp : lib.parseIP u.hostname with
      | none => exact .inl ⟨rfl,rfl⟩
      | some ip => exact .inr ⟨ip,by simp [checkedAddr, hp],hi ip hp⟩
    obtain ⟨o,-,hba⟩ := redirect_unprotected hg
      ((doURL_request_iff hu (some []) host).mpr ⟨ha,hm,ht,hn⟩)
    exact hba (hal o)
  · intro ho o
    apply protected_of_no_request
    intro host hq
    obtain ⟨ha,hm,ht,hn⟩ := (doURL_request_iff hu o.checked host).mp hq
    rcases ho with hnt | ⟨ip,hip,hk⟩
    · exact hnt ⟨hm,ht,host,hn⟩
    · rcases (validate_ok_iff lib cfg _ _ he).mp ha with ⟨hp,-⟩ | ⟨ip',hi',hl,hcl⟩
      · rw [hip] at hp
        cases hp
      · have hsa : ip = ip' := by simpa [checkedAddr, hip] using hi'
        subst hsa
        rcases hk with hse | hb
        · rw [hl] at hse
          cases hse
        · exact hcl hb

lemma loopback_protected (hl : cfg.blockLoopback)
    (hip : checkedAddr lib u.hostname o.checked = some ip) : Protected lib cfg o urlStr method := by
  apply protected_of_no_request
  intro host hq
  have hi := ((doURL_request_iff hu o.checked host).mp hq).1
  rcases (validate_ok_iff lib cfg _ _ he).mp hi with ⟨hp,hans⟩ | ⟨ip',-,ha,-⟩
  · simp [checkedAddr, hp, hans] at hip
  · rw [hl] at ha
    cases ha

end

end

/-- The protection as a condition on the call, and what keeps a single run safe
without it: the resolver gives the dialer only the address that was checked and
no server redirects. -/
theorem protection_iff (lib : Library) (cfg : SSRFConfig) (urlStr method : String) (u : URL)
    (hflag : cfg.blockPrivate = true ∨ cfg.blockLoopback = true ∨ cfg.blockMetadata = true)
    (hu : lib.parseURL urlStr = .ok u) (he : ¬Excused cfg u.hostname) :
    ((∀ o, Protected lib cfg o urlStr method) ↔
        ¬Sendable lib u method ∨ ∃ ip, lib.parseIP u.hostname = some ip ∧
          (cfg.blockLoopback = true ∨ Blocked cfg ip)) ∧
      ∀ o ip, checkedAddr lib u.hostname o.checked = some ip →
        (cfg.blockLoopback = true ∨
          (o.redirects = [] ∧ (∀ a ∈ o.first.answer, a = ip) ∧
            lib.newRequest method (toLower u.scheme) u.safeHost (lib.clean u.path) =
              .ok u.hostname)) →
        Protected lib cfg o urlStr method := by
  refine ⟨protected_iff hu he hflag,?_⟩
  rintro o ip hi (hl | ⟨hn,ha,ho⟩)
  · exact loopback_protected hu he hl hi
  · exact steady_protected hu he hi hn ha ho

theorem private_literal_protected :
    Protected (plainLibrary "http" "10.0.0.1") { blockPrivate := true }
      ⟨none,⟨[],[0]⟩,[("10.0.0.2",⟨[],[0]⟩)]⟩ "http://10.0.0.1/" "GET" :=
  (protection_iff (plainLibrary "http" "10.0.0.1") { blockPrivate := true } "http://10.0.0.1/" "GET"
    ⟨"http","10.0.0.1","","/"⟩ (.inl rfl) rfl (by simp [Excused])).1.mpr
    (.inr ⟨.v4 0x0a000001#32,rfl,.inr (by decide)⟩) _

/-- With private addresses blocked: a second lookup with another answer, a
second address in the answer and a redirect each reach a private address. -/
theorem private_address_dialled : let lib := plainLibrary "http" "example.com"
    let cfg : SSRFConfig := { blockPrivate := true }
    let pub := Addr.v4 0x5db8d822#32
    let priv := Addr.v4 0x0a000001#32
    ¬Excused cfg "example.com" ∧ Blocked cfg priv ∧
      priv ∈ connections lib cfg ⟨some [pub],⟨[priv],[0]⟩,[]⟩ "http://example.com/" "GET" ∧
      priv ∈ connections lib cfg ⟨some [pub,priv],⟨[pub,priv],[0,1]⟩,[]⟩ "http://example.com/"
        "GET" ∧
      priv ∈ connections lib cfg ⟨some [pub],⟨[pub],[0]⟩,[("10.0.0.1",⟨[],[0]⟩)]⟩
        "http://example.com/" "GET" := by
  refine ⟨by simp [Excused],by decide,by decide,by decide,by decide⟩

end SdkApi.SsrfProtection
