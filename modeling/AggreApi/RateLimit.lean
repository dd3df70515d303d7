import AggreApi.Lib.Run
import AggreApi.Lib.SlidingWindow

/-!
# The in-memory rate limiter

One limiter serves every middleware of the process. Each call of `Request` is one step under its
mutex, and so is each pass of the goroutine that `Init` starts. Times are the seconds
`time.Now().Unix()` reads, which do not go back.
-/

namespace AggreApi

abbrev RequestQueue := { queue : List ℤ // queue ≠ [] }

namespace RequestQueue

def oldest (queue : RequestQueue) : ℤ := queue.1.head queue.2

def newest (queue : RequestQueue) : ℤ := queue.1.getLast queue.2

def append (queue : List ℤ) (now : ℤ) : RequestQueue := ⟨queue ++ [now], by simp⟩

end RequestQueue

/-- The limiter after its first `Init`, its expiration in seconds. -/
structure InMemoryRateLimiter where
  store : String → Option RequestQueue
  expirationDuration : ℤ

variable (l : InMemoryRateLimiter)

namespace InMemoryRateLimiter

/-- `Init`: the first call makes the store and fixes the expiration, later ones do nothing. -/
def init (expirationDuration : ℤ) : Option InMemoryRateLimiter → InMemoryRateLimiter
  | none => { store := fun _ => none, expirationDuration }
  | some l => l

/-- One pass of `clearExpiredItems`. -/
def clearExpiredItems (now : ℤ) : InMemoryRateLimiter :=
  { l with
    store := fun key =>
      (l.store key).filter fun queue => ¬l.expirationDuration < now - queue.newest }

def put (key : String) (queue : RequestQueue) : InMemoryRateLimiter :=
  { l with store := Function.update l.store key (some queue) }

def request (key : String) (maxRequestNum : ℕ) (duration now : ℤ) : Bool × InMemoryRateLimiter :=
  match l.store key with
  | some queue =>
    if queue.1.length < maxRequestNum then (true, l.put key (.append queue.1 now))
    else if duration ≤ now - queue.oldest then (true, l.put key (.append queue.1.tail now))
    else (false, l)
  | none => (true, l.put key (.append [] now))

end InMemoryRateLimiter

/-- What a caller passes to `Request` beside the key. -/
structure RateLimit where
  maxRequestNum : ℕ
  duration : ℤ
  deriving DecidableEq, Repr

/-- The limiter with the clock, its next waking, and the requests let in, newest first. -/
structure LimiterState where
  limiter : InMemoryRateLimiter
  clock : ℤ
  wake : ℤ
  admitted : String → List ℤ

inductive LimiterEvent
  /-- A later caller's `Init`. -/
  | init (expirationDuration : ℤ)
  | elapse (seconds : ℕ)
  | request (key : String)
  | clearExpiredItems
  deriving DecidableEq

namespace LimiterState

def start (expirationDuration now : ℤ) : LimiterState where
  limiter := .init expirationDuration none
  clock := now
  wake := now + expirationDuration
  admitted := fun _ => []

def request (limits : String → RateLimit) (s : LimiterState) (key : String) : LimiterState :=
  let answer := s.limiter.request key (limits key).maxRequestNum (limits key).duration s.clock
  { s with
    limiter := answer.2
    admitted :=
      if answer.1 then Function.update s.admitted key (s.clock :: s.admitted key)
      else s.admitted }

/-- The goroutine's next pass, once its sleep is over; there is no goroutine without an
expiration. -/
def clear (s : LimiterState) : LimiterState :=
  if 0 < s.limiter.expirationDuration ∧ s.wake ≤ s.clock then
    { s with
      limiter := s.limiter.clearExpiredItems s.clock
      wake := s.clock + s.limiter.expirationDuration }
  else s

def step (limits : String → RateLimit) (s : LimiterState) : LimiterEvent → LimiterState
  | .init expirationDuration => { s with limiter := .init expirationDuration (some s.limiter) }
  | .elapse seconds => { s with clock := s.clock + seconds }
  | .request key => s.request limits key
  | .clearExpiredItems => s.clear

def kept (s : LimiterState) (key : String) : List ℤ :=
  ((s.limiter.store key).elim [] (·.1)).reverse

end LimiterState

end AggreApi
