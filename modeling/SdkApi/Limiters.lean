import SdkApi.Admission
import Mathlib.Data.Rat.Floor

/-!
# The limiters of the rate limit middlewares

A sliding window counts hits of the current window and, weighted, of the one
before; the limiter of `x/time/rate` is a token bucket. Both are created with
the same pair of a rate and a burst. The clock counts nanoseconds, and the
sliding window reads whole seconds of it.
-/

namespace SdkApi.Limiters
open Admission

/-- `time.Second` -/
def second : ℤ := 1000000000

def unix (now : ℤ) : ℤ := now/second

structure SlidingWindow where
  prevHits : ℤ := 0
  currHits : ℤ := 0
  windowExp : ℤ := 0
  max : ℤ
  expiration : ℤ
  deriving DecidableEq

def newSlidingWindowLimiter (max burst : ℤ) : SlidingWindow where
  max := max
  expiration := if burst ≤ 0 then max else burst

def SlidingWindow.rotate (l : SlidingWindow) (now : ℤ) : SlidingWindow :=
  if l.windowExp ≤ now then
    if l.expiration ≤ now-(l.windowExp-l.expiration) then
      { l with prevHits := 0, currHits := 0, windowExp := now+l.expiration }
    else
      { l with prevHits := l.currHits, currHits := 0, windowExp := l.windowExp+l.expiration }
  else l

def SlidingWindow.rate (l : SlidingWindow) (now : ℤ) : ℚ :=
  l.prevHits*(1-((l.windowExp-now : ℤ) : ℚ)/l.expiration)+l.currHits

/-- `Allow` at a Unix time. -/
def SlidingWindow.allow (l : SlidingWindow) (now : ℤ) : Bool × SlidingWindow :=
  if l.windowExp = 0 then (true,{ l with windowExp := now+l.expiration, currHits := 1 })
  else if (l.max : ℚ) ≤ (l.rotate now).rate now then (false,l.rotate now)
  else (true,{ l.rotate now with currHits := (l.rotate now).currHits+1 })

def SlidingWindow.cancel (l : SlidingWindow) : SlidingWindow :=
  if 0 < l.currHits then { l with currHits := l.currHits-1 } else l

/-- `owed` are the requests that were cancelled. -/
structure XrateLimiter where
  bucket : Bucket
  limit : ℤ
  burst : ℤ
  owed : ℕ := 0
  deriving DecidableEq

/-- `xrate.NewLimiter`: a full bucket. -/
def newXrateLimiter (limit burst : ℤ) : XrateLimiter where
  bucket := ⟨burst*second,0⟩
  limit := limit
  burst := burst

def XrateLimiter.allow (l : XrateLimiter) (now : ℤ) : Bool × XrateLimiter :=
  if 0 < l.owed then (true,{ l with owed := l.owed-1 })
  else
    let r := l.bucket.take (l.burst*second) l.limit second now
    (r.1,{ l with bucket := r.2 })

def XrateLimiter.cancel (l : XrateLimiter) : XrateLimiter := { l with owed := l.owed+1 }

structure RateLimitEntry where
  requestsPerSecond : ℤ
  burst : ℤ
  ttl : ℤ := 0
  deriving DecidableEq

inductive Limiter where
  | sliding (l : SlidingWindow)
  | xrate (l : XrateLimiter)
  deriving DecidableEq

def algorithmSlidingWindow : String := "sliding_window"

/-- The switch of `newLimiter` without a Redis connection. -/
def newMemoryLimiter (entry : RateLimitEntry) (alg : String) : Limiter :=
  if alg = algorithmSlidingWindow then
    .sliding (newSlidingWindowLimiter entry.requestsPerSecond entry.burst)
  else .xrate (newXrateLimiter entry.requestsPerSecond entry.burst)

def Limiter.allow : Limiter → ℤ → Bool × Limiter
  | .sliding l, now => ((l.allow (unix now)).1,.sliding (l.allow (unix now)).2)
  | .xrate l, now => ((l.allow now).1,.xrate (l.allow now).2)

def Limiter.cancel : Limiter → Limiter
  | .sliding l => .sliding l.cancel
  | .xrate l => .xrate l.cancel

section

lemma rotate_eq (l : SlidingWindow) (now : ℤ) :
    l.rotate now = if l.windowExp ≤ now then
      { l with prevHits := 0, currHits := 0, windowExp := now+l.expiration } else l := by
  unfold SlidingWindow.rotate
  by_cases hn : l.windowExp ≤ now
  · rw [if_pos hn, if_pos hn, if_pos (by omega)]
  · rw [if_neg hn, if_neg hn]

lemma rate_of_prev {l : SlidingWindow} (h : l.prevHits = 0) (now : ℤ) :
    l.rate now = l.currHits := by
  simp [SlidingWindow.rate, h]

structure Started (l : SlidingWindow) : Prop where
  prevHits : l.prevHits = 0
  windowExp : 0 < l.windowExp

variable {l : SlidingWindow} {now : ℤ}

lemma allow_inside (h : Started l) (hn : now < l.windowExp) :
    l.allow now = if l.max ≤ l.currHits then (false,l)
      else (true,{ l with currHits := l.currHits+1 }) := by
  have ho : l.rotate now = l := by rw [rotate_eq, if_neg (by omega)]
  unfold SlidingWindow.allow
  rw [if_neg h.windowExp.ne', ho, rate_of_prev h.prevHits]
  simp only [Int.cast_le]

lemma allow_outside (h : Started l) (hm : 0 < l.max) (hn : l.windowExp ≤ now) :
    l.allow now =
      (true,{ l with prevHits := 0, currHits := 1, windowExp := now+l.expiration }) := by
  unfold SlidingWindow.allow
  rw [if_neg h.windowExp.ne', rotate_eq, if_pos hn, rate_of_prev rfl, if_neg]
  · rfl
  · exact_mod_cast not_le.mpr hm

lemma allow_first (h : l.windowExp = 0) :
    l.allow now = (true,{ l with windowExp := now+l.expiration, currHits := 1 }) :=
  if_pos h

end

end SdkApi.Limiters
