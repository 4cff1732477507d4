import SdkApi.Limiters
import SdkApi.Unwinding

/-!
# Where the limiters are kept

Each rate limit middleware owns a store: one limiter for all requests and
three maps of limiters by id. With a Redis connection a limiter only names
the keys under which a script keeps its bucket, and counts in the process
while Redis cannot be reached. A check fetches a limiter, or creates it, and
asks it.
-/

namespace SdkApi.LimiterStore
open Admission Limiters List Function

abbrev Redis := String → Option (ℤ × ℤ)

def Redis.get (db : Redis) (now : ℤ) (key : String) : Option ℤ :=
  (db key).bind fun v => if now < v.2 then some v.1 else none

def Redis.setex (db : Redis) (now : ℤ) (key : String) (ttl value : ℤ) : Redis :=
  fun k => if k = key then some (value,now+ttl*second) else db k

/-- `redisTokenKeyFormat` -/
def tokenKey (key : String) : String := "\x7b" ++ key ++ "\x7d.tokens"

/-- `redisTimestampKeyFormat` -/
def timestampKey (key : String) : String := "\x7b" ++ key ++ "\x7d.ts"

/-- An expiry of no time at all is an error of the first `setex`. -/
def tokenScript (db : Redis) (key : String) (rate capacity now : ℤ) : Option (Bool × Redis) :=
  let ttl := 2*capacity/rate
  let lastTokens := (db.get now (tokenKey key)).getD capacity
  let lastRefreshed := (db.get now (timestampKey key)).getD 0
  let delta := max 0 (unix now-lastRefreshed)
  let filledTokens := min capacity (lastTokens+delta*rate)
  let allowed : Bool := 1 ≤ filledTokens
  let newTokens := if allowed then filledTokens-1 else filledTokens
  if ttl ≤ 0 then none
  else some (allowed,
    (db.setex now (tokenKey key) ttl newTokens).setex now (timestampKey key) ttl (unix now))

inductive Reply where
  | ran
  | cancelled
  | failed
  deriving DecidableEq

/-- `pinged` says that Redis has answered a ping since it was found dead. -/
structure Moment where
  now : ℤ
  pinged : Bool := false
  reply : Reply := .ran
  deriving DecidableEq

structure TokenLimiter where
  rate : ℤ
  burst : ℤ
  key : String
  redisAlive : Bool := true
  rescueLimiter : Bucket
  deriving DecidableEq

/-- `xrate.Every`: the nanoseconds between two tokens of the rescue limiter. -/
def TokenLimiter.interval (l : TokenLimiter) : ℤ := second/l.rate

def newTokenLimiter (rate burst : ℤ) (key : String) : TokenLimiter where
  rate := rate
  burst := burst
  key := key
  rescueLimiter := ⟨burst*(second/rate),0⟩

def TokenLimiter.rescue (l : TokenLimiter) (db : Redis) (now : ℤ) :
    Bool × TokenLimiter × Redis :=
  let r := l.rescueLimiter.take (l.burst*l.interval) 1 l.interval now
  (r.1,{ l with redisAlive := false, rescueLimiter := r.2 },db)

def TokenLimiter.allow (l : TokenLimiter) (db : Redis) (m : Moment) :
    Bool × TokenLimiter × Redis :=
  if l.redisAlive = false ∧ m.pinged = false then l.rescue db m.now
  else
    match m.reply with
    | .cancelled => (false,{ l with redisAlive := true },db)
    | .failed => l.rescue db m.now
    | .ran =>
      match tokenScript db l.key l.rate l.burst m.now with
      | none => l.rescue db m.now
      | some (allowed,after) => (allowed,{ l with redisAlive := true },after)

/-- The limiters behind the interface `limiter`. -/
inductive AnyLimiter where
  | memory (l : Limiter)
  | redis (l : TokenLimiter)
  deriving DecidableEq

def AnyLimiter.allow (l : AnyLimiter) (db : Redis) (m : Moment) : Bool × AnyLimiter × Redis :=
  match l with
  | .memory l => ((l.allow m.now).1,.memory (l.allow m.now).2,db)
  | .redis l => ((l.allow db m).1,.redis (l.allow db m).2.1,(l.allow db m).2.2)

def AnyLimiter.cancel : AnyLimiter → AnyLimiter
  | .memory l => .memory l.cancel
  | .redis l => .redis l

structure Settings where
  rdb : Bool := false
  alg : String := algorithmSlidingWindow
  ttl : ℤ := 0

def newLimiter (key : String) (entry : RateLimitEntry) (s : Settings) : AnyLimiter :=
  if s.rdb then .redis (newTokenLimiter entry.requestsPerSecond entry.burst key)
  else .memory (newMemoryLimiter entry s.alg)

def AnyLimiter.origin : AnyLimiter → AnyLimiter
  | .memory (.sliding l) => .memory (.sliding { max := l.max, expiration := l.expiration })
  | .memory (.xrate l) => .memory (.xrate (newXrateLimiter l.limit l.burst))
  | .redis l => .redis (newTokenLimiter l.rate l.burst l.key)

def keysOf (key : String) : List String := [tokenKey key,timestampKey key]

def AnyLimiter.keys : AnyLimiter → List String
  | .memory _ => []
  | .redis l => keysOf l.key

inductive Scope where
  | ip
  | user
  | key
  | role
  | entryUser
  | entryKey
  deriving DecidableEq

def Scope.text : Scope → String
  | .ip => "ip"
  | .user => "user"
  | .key => "key"
  | .role => "role"
  | .entryUser => "entry_user"
  | .entryKey => "entry_key"

inductive Table where
  | perIP
  | perUser
  | perKey
  deriving DecidableEq

/-- The switch at the head of `getOrCreateLimiter`. -/
def Scope.table : Scope → Table
  | .ip => .perIP
  | .key => .perKey
  | .entryKey => .perKey
  | .user => .perUser
  | .role => .perUser
  | .entryUser => .perUser

inductive Slot where
  | global
  | keyed (scope : Scope) (key : String)
  deriving DecidableEq

inductive Cell where
  | global
  | held (table : Table) (key : String)
  deriving DecidableEq

def Slot.cell : Slot → Cell
  | .global => .global
  | .keyed scope key => .held scope.table key

def Slot.rlKey : Slot → String
  | .global => "sdk:rl:global"
  | .keyed scope key => "sdk:rl:" ++ scope.text ++ ":" ++ key

structure EntryState where
  limiter : AnyLimiter
  expiresAt : ℤ := 0
  deriving DecidableEq

/-- A limiter that is still held is told from its successor by its number. -/
structure Content where
  created : ℕ := 0
  state : Option EntryState := none

def newState (s : Settings) (rlKey : String) (entry : RateLimitEntry) (now : ℤ) : EntryState :=
  let ttl := if entry.ttl ≤ 0 then s.ttl else entry.ttl
  ⟨newLimiter rlKey entry s,if 0 < ttl then now+ttl else 0⟩

def getOrCreate (content : Content) (new : ℤ → EntryState) (now : ℤ) : ℕ × EntryState :=
  match content.state with
  | none => (content.created+1,new now)
  | some es =>
    if es.expiresAt = 0 ∨ now < es.expiresAt then (content.created,es)
    else (content.created+1,new now)

def getOrCreateLimiter (s : Settings) (slot : Slot) (entry : RateLimitEntry) (content : Content)
    (now : ℤ) : ℕ × EntryState :=
  getOrCreate content (newState s slot.rlKey entry) now

/-- The limiter of a check. The one for all requests is never created here. -/
def fetch (s : Settings) (slot : Slot) (entry : RateLimitEntry) (content : Content) (now : ℤ) :
    Option (ℕ × EntryState) :=
  match slot with
  | .global => content.state.map fun es => (content.created,es)
  | .keyed _ _ => some (getOrCreateLimiter s slot entry content now)

def Content.gc (content : Content) (now : ℤ) : Content :=
  { content with state := content.state.filter fun es => !(0 < es.expiresAt && es.expiresAt ≤ now) }

section

inductive Place where
  | server
  | entry (n : ℕ)
  | post (n : ℕ)
  deriving DecidableEq

structure System where
  cells : Place → Cell → Content
  redis : Redis

def System.put (σ : System) (p : Place) (cell : Cell) (content : Content) : System :=
  { σ with cells := fun q k => if q = p ∧ k = cell then content else σ.cells q k }

inductive Action where
  | check (p : Place) (slot : Slot) (entry : RateLimitEntry) (m : Moment)
  | cancel (p : Place) (slot : Slot) (created : ℕ)
  | gc (p : Place) (now : ℤ)
  deriving DecidableEq

variable (settings : Place → Settings)

def check (σ : System) (p : Place) (slot : Slot) (entry : RateLimitEntry) (m : Moment) :
    Bool × System :=
  match fetch (settings p) slot entry (σ.cells p slot.cell) m.now with
  | none => (true,σ)
  | some (n,es) =>
    let r := es.limiter.allow σ.redis m
    (r.1,{ σ.put p slot.cell ⟨n,some { es with limiter := r.2.1 }⟩ with redis := r.2.2 })

def cancel (σ : System) (p : Place) (slot : Slot) (created : ℕ) : System :=
  let content := σ.cells p slot.cell
  if content.created = created then
    σ.put p slot.cell ⟨created,content.state.map fun es => { es with limiter := es.limiter.cancel }⟩
  else σ

def gc (σ : System) (p : Place) (now : ℤ) : System :=
  { σ with cells := fun q k => if q = p then (σ.cells q k).gc now else σ.cells q k }

def step (σ : System) : Action → Bool × System
  | .check p slot entry m => check settings σ p slot entry m
  | .cancel p slot created => (true,cancel σ p slot created)
  | .gc p now => (true,gc σ p now)

lemma tokenKey_injective : Injective tokenKey := by
  intro k k' h
  have hl := congrArg String.toList h
  simp only [tokenKey, String.toList_append, append_cancel_right_eq,
    append_cancel_left_eq] at hl
  exact String.toList_injective hl

lemma timestampKey_injective : Injective timestampKey := by
  intro k k' h
  have hl := congrArg String.toList h
  simp only [timestampKey, String.toList_append, append_cancel_right_eq,
    append_cancel_left_eq] at hl
  exact String.toList_injective hl

lemma tokenKey_ne_timestampKey (k k' : String) : tokenKey k ≠ timestampKey k' := by
  intro h
  have ht : (tokenKey k).toList = ("\x7b" ++ k ++ "\x7d.tok").toList ++ "ens".toList := by
    simp [tokenKey, String.toList_append]
  have hi : (timestampKey k').toList = ("\x7b" ++ k' ++ "\x7d").toList ++ ".ts".toList := by
    simp [timestampKey, String.toList_append]
  rw [h, hi] at ht
  have he := (append_inj' ht rfl).2
  exact absurd he (by decide)

lemma scope_text_injective : Injective Scope.text := by
  intro s s' h
  cases s <;> cases s' <;> first | rfl | exact absurd h (by decide)

variable (s : Scope)

lemma text_takeWhile (k : List Char) :
    (s.text.toList++ ':'::k).takeWhile (· ≠ ':') = s.text.toList := by
  cases s <;> rfl

lemma rlKey_keyed (k : String) :
    (Slot.keyed s k).rlKey.toList = "sdk:rl:".toList++(s.text.toList++ ':'::k.toList) := by
  simp [Slot.rlKey, String.toList_append]

lemma rlKey_keyed_ne_global (k : String) : (Slot.keyed s k).rlKey ≠ Slot.global.rlKey := by
  intro h
  have hg : Slot.global.rlKey.toList = "sdk:rl:".toList++"global".toList := rfl
  rw [← h, rlKey_keyed, append_cancel_left_eq] at hg
  have ho : ':' ∈ "global".toList := by
    rw [← hg]
    simp
  exact absurd ho (by decide)

lemma rlKey_injective : Injective Slot.rlKey := by
  intro a b h
  cases a with
  | global =>
    cases b with
    | global => rfl
    | keyed s k => exact absurd h.symm (rlKey_keyed_ne_global s k)
  | keyed s k =>
    cases b with
    | global => exact absurd h (rlKey_keyed_ne_global s k)
    | keyed s' k' =>
      have hl := congrArg String.toList h
      rw [rlKey_keyed, rlKey_keyed, append_cancel_left_eq] at hl
      have ht : s.text.toList = s'.text.toList := by
        rw [← text_takeWhile s k.toList, hl, text_takeWhile]
      rw [ht, append_cancel_left_eq] at hl
      rw [scope_text_injective (String.toList_injective ht),
        String.toList_injective (List.cons.inj hl).2]

lemma rlKey_of_mem_keysOf {a b k : String} (ha : k ∈ keysOf a) (hb : k ∈ keysOf b) : a = b := by
  simp only [keysOf, mem_cons, not_mem_nil, or_false] at ha hb
  rcases ha with rfl | rfl
  · rcases hb with h | h
    · exact tokenKey_injective h
    · exact absurd h (tokenKey_ne_timestampKey a b)
  · rcases hb with h | h
    · exact absurd h.symm (tokenKey_ne_timestampKey b a)
    · exact timestampKey_injective h

lemma setex_of_ne {db : Redis} {now ttl value : ℤ} {key k : String} (h : k ≠ key) :
    db.setex now key ttl value k = db k := if_neg h

lemma get_congr {db db' : Redis} {key : String} (h : db key = db' key) (now : ℤ) :
    db.get now key = db'.get now key := by
  rw [Redis.get, Redis.get, h]

variable {db db' : Redis} {k key : String} {rate capacity now : ℤ}

lemma tokenScript_frame {b : Bool} {after : Redis}
    (h : tokenScript db key rate capacity now = some (b,after)) (hk : k ∉ keysOf key) :
    after k = db k := by
  simp only [keysOf, mem_cons, not_mem_nil, or_false, not_or] at hk
  simp only [tokenScript] at h
  split at h
  · cases h
  · cases h
    rw [setex_of_ne hk.2, setex_of_ne hk.1]

lemma tokenScript_local (h : ∀ k ∈ keysOf key, db k = db' k) :
    (tokenScript db key rate capacity now = none ∧ tokenScript db' key rate capacity now = none) ∨
      ∃ b after after', tokenScript db key rate capacity now = some (b,after) ∧
        tokenScript db' key rate capacity now = some (b,after') ∧
        ∀ k ∈ keysOf key, after k = after' k := by
  have ht := get_congr (h (tokenKey key) (by simp [keysOf])) now
  have hi := get_congr (h (timestampKey key) (by simp [keysOf])) now
  simp only [tokenScript, ht, hi]
  by_cases hl : 2*capacity/rate ≤ 0
  · exact .inl ⟨if_pos hl,if_pos hl⟩
  · refine .inr ⟨_,_,_,if_neg hl,if_neg hl,?_⟩
    intro k hk
    simp only [Redis.setex, h k hk]

variable {l : AnyLimiter} {m : Moment}

lemma allow_frame (hk : k ∉ l.keys) : (l.allow db m).2.2 k = db k := by
  cases l with
  | memory l => rfl
  | redis l =>
    simp only [AnyLimiter.allow, TokenLimiter.allow]
    split
    · rfl
    · split
      · rfl
      · rfl
      · split
        · rfl
        · rename_i hi
          exact tokenScript_frame hi hk

lemma allow_local (h : ∀ k ∈ l.keys, db k = db' k) :
    (l.allow db m).1 = (l.allow db' m).1 ∧ (l.allow db m).2.1 = (l.allow db' m).2.1 ∧
      ∀ k ∈ l.keys, (l.allow db m).2.2 k = (l.allow db' m).2.2 k := by
  cases l with
  | memory l => exact ⟨rfl,rfl,h⟩
  | redis l =>
    simp only [AnyLimiter.allow, TokenLimiter.allow]
    split
    · exact ⟨rfl,rfl,h⟩
    · split
      · exact ⟨rfl,rfl,h⟩
      · exact ⟨rfl,rfl,h⟩
      · rcases tokenScript_local h with ⟨hl,hr⟩ | ⟨b,after,after',hl,hr,ha⟩
        · rw [hl, hr]
          exact ⟨rfl,rfl,h⟩
        · rw [hl, hr]
          exact ⟨rfl,rfl,ha⟩

lemma slidingWindow_allow_fixed (l : SlidingWindow) (now : ℤ) :
    (l.allow now).2.max = l.max ∧ (l.allow now).2.expiration = l.expiration := by
  unfold SlidingWindow.allow SlidingWindow.rotate
  split_ifs <;> exact ⟨rfl,rfl⟩

lemma xrate_allow_fixed (l : XrateLimiter) (now : ℤ) :
    (l.allow now).2.limit = l.limit ∧ (l.allow now).2.burst = l.burst := by
  unfold XrateLimiter.allow
  split_ifs <;> exact ⟨rfl,rfl⟩

lemma tokenLimiter_allow_fixed (l : TokenLimiter) (db : Redis) (m : Moment) :
    (l.allow db m).2.1.rate = l.rate ∧ (l.allow db m).2.1.burst = l.burst ∧
      (l.allow db m).2.1.key = l.key := by
  unfold TokenLimiter.allow
  split
  · exact ⟨rfl,rfl,rfl⟩
  · split
    · exact ⟨rfl,rfl,rfl⟩
    · exact ⟨rfl,rfl,rfl⟩
    · split <;> exact ⟨rfl,rfl,rfl⟩

lemma allow_origin {l : AnyLimiter} {db : Redis} {m : Moment} :
    (l.allow db m).2.1.origin = l.origin := by
  cases l with
  | memory l =>
    cases l with
    | sliding l =>
      obtain ⟨hm,he⟩ := slidingWindow_allow_fixed l (unix m.now)
      simp only [AnyLimiter.allow, Limiter.allow, AnyLimiter.origin, hm, he]
    | xrate l =>
      obtain ⟨hl,hb⟩ := xrate_allow_fixed l m.now
      simp only [AnyLimiter.allow, Limiter.allow, AnyLimiter.origin, hl, hb]
  | redis l =>
    obtain ⟨ha,hb,hk⟩ := tokenLimiter_allow_fixed l db m
    simp only [AnyLimiter.allow, AnyLimiter.origin, ha, hb, hk]

lemma cancel_origin (l : AnyLimiter) : l.cancel.origin = l.origin := by
  cases l with
  | memory l =>
    cases l with
    | sliding l =>
      simp only [AnyLimiter.cancel, Limiter.cancel, SlidingWindow.cancel, AnyLimiter.origin]
      split <;> rfl
    | xrate l => rfl
  | redis l => rfl

lemma newLimiter_origin {key : String} {entry : RateLimitEntry} {s : Settings} :
    (newLimiter key entry s).origin = newLimiter key entry s := by
  unfold newLimiter newMemoryLimiter
  split_ifs <;> rfl

lemma keys_of_origin {entry : RateLimitEntry} {s : Settings}
    (h : l.origin = newLimiter key entry s) : l.keys = if s.rdb then keysOf key else [] := by
  unfold newLimiter at h
  cases hs : s.rdb with
  | true =>
    rw [hs, if_pos rfl] at h
    cases l with
    | memory l => cases l <;> cases h
    | redis l =>
      have hk : l.key = key := by
        injection h with h
        exact congrArg TokenLimiter.key h
      rw [if_pos rfl, AnyLimiter.keys, hk]
  | false =>
    rw [hs, if_neg Bool.false_ne_true] at h
    cases l with
    | memory l => rfl
    | redis l => cases h

end

section Collection

/-- The map for the first argument of `getOrCreateLimiter`, which may be any
string. -/
def tableOf (pre : String) : Table :=
  if pre = "ip" then .perIP else if pre ∈ ["key","entry_key"] then .perKey else .perUser

def created (s : Settings) (pre key : String) : RateLimitEntry → ℤ → EntryState :=
  newState s ("sdk:rl:" ++ pre ++ ":" ++ key)

inductive StoreCall where
  | get (pre key : String) (entry : RateLimitEntry)
  | gc
  deriving DecidableEq

/-- What the calls return, with the time of each. -/
def returned (s : Settings) : (Table × String → Content) → List (ℤ × StoreCall) →
    List (ℤ × ℕ × EntryState)
  | _, [] => []
  | m, (now,.gc)::calls => returned s (fun k => (m k).gc now) calls
  | m, (now,.get pre key entry)::calls =>
    let r := getOrCreate (m (tableOf pre,key)) (created s pre key entry) now
    (now,r)::returned s (update m (tableOf pre,key) ⟨r.1,some r.2⟩) calls

/-- What one run has collected, the other has in an expired state. -/
def Collected (now : ℤ) (c c' : Content) : Prop :=
  c = c' ∨ c = { c' with state := none } ∧ ∃ es, c'.state = some es ∧ 0 < es.expiresAt ∧
    es.expiresAt ≤ now

section

variable {s : Settings} {now : ℤ} {c c' : Content} {m m' : Table × String → Content}
  {calls : List (ℤ × StoreCall)}

lemma Collected.gc (h : Collected now c c') : Collected now (c.gc now) c' := by
  rcases h with rfl | ⟨rfl,h⟩
  · obtain ⟨n,_ | es⟩ := c
    · exact .inl rfl
    · by_cases he : 0 < es.expiresAt ∧ es.expiresAt ≤ now
      · exact .inr ⟨by simp [Content.gc, he],es,rfl,he⟩
      · exact .inl (by simp [Content.gc, Option.filter_some, ← Bool.decide_and, he])
  · exact .inr ⟨rfl,h⟩

lemma Collected.get (h : Collected now c c') (new : ℤ → EntryState) :
    getOrCreate c new now = getOrCreate c' new now := by
  rcases h with rfl | ⟨rfl,es,he,hp,hn⟩
  · rfl
  · rw [getOrCreate, getOrCreate, he]
    exact (if_neg (by omega)).symm

lemma returned_collected (h : ∀ k, Collected now (m k) (m' k)) (hn : ∀ c ∈ calls, now ≤ c.1)
    (hs : (calls.map Prod.fst).Pairwise (· ≤ ·)) :
    returned s m calls = returned s m' (calls.filter (·.2 ≠ .gc)) := by
  induction calls generalizing now m m' with
  | nil => rfl
  | cons call calls ih =>
    obtain ⟨t,call⟩ := call
    obtain ⟨ht,hc⟩ := pairwise_cons.mp hs
    have hl : ∀ c ∈ calls, t ≤ c.1 := fun c hm => ht _ (mem_map_of_mem hm)
    have h : ∀ k, Collected t (m k) (m' k) := fun k => (h k).imp_right fun ⟨hm,es,he,hp,hx⟩ =>
      ⟨hm,es,he,hp,hx.trans (hn _ (.head _))⟩
    cases call with
    | gc => exact ih (fun k => (h k).gc) hl hc
    | get pre key entry =>
      rw [filter_cons_of_pos (by simp), returned, returned, (h _).get]
      refine congrArg _ (ih (fun k => ?_) hl hc)
      by_cases hk : k = (tableOf pre,key)
      · subst hk
        simp [Collected]
      · simpa [hk] using h k

lemma created_unexpired (pre key : String) (entry : RateLimitEntry) (now : ℤ) :
    (created s pre key entry now).expiresAt = 0 ∨ now < (created s pre key entry now).expiresAt := by
  simp only [created, newState]
  split_ifs <;> omega

lemma returned_unexpired : ∀ r ∈ returned s m calls,
    r.2.2.expiresAt = 0 ∨ r.1 < r.2.2.expiresAt := by
  induction calls generalizing m with
  | nil => exact nofun
  | cons call calls ih =>
    obtain ⟨t,⟨pre,key,entry⟩ | _⟩ := call
    · refine forall_mem_cons.mpr ⟨?_,ih⟩
      have hc := @created_unexpired s pre key entry t
      rw [getOrCreate]
      split
      · exact hc
      · split_ifs with he
        · exact he
        · exact hc
    · exact ih

/-- With a clock that does not go back, collecting expired limiters changes no
answer, and no answer has expired; an expiry of zero stands for none. Each scope
of the middlewares has the map of its text. -/
theorem gc_invisible (s : Settings) (m : Table × String → Content) (calls : List (ℤ × StoreCall))
    (h : (calls.map Prod.fst).Pairwise (· ≤ ·)) :
    returned s m calls = returned s m (calls.filter (·.2 ≠ .gc)) ∧
    (∀ r ∈ returned s m calls, r.2.2.expiresAt = 0 ∨ r.1 < r.2.2.expiresAt) ∧
    ∀ scope : Scope, tableOf scope.text = scope.table := by
  refine ⟨?_, returned_unexpired, fun scope => by cases scope <;> rfl⟩
  cases calls with
  | nil => rfl
  | cons call calls =>
    refine returned_collected (fun _ => .inl rfl) (forall_mem_cons.mpr ⟨le_refl call.1,?_⟩) h
    exact fun c hc => (pairwise_cons.mp h).1 _ (mem_map_of_mem hc)

theorem expired_collected : let calls := [(1,.get "ip" "a" ⟨1,1,2⟩),(4,.gc),(5,.get "ip" "a" ⟨1,1,2⟩)]
    returned {} (fun _ => {}) calls = returned {} (fun _ => {}) (calls.filter (·.2 ≠ .gc)) :=
  (gc_invisible {} _ _ (by decide)).1

end

end Collection

end SdkApi.LimiterStore
