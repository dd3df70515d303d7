import AggreApi.Lib.Procs
import AggreApi.Lib.Run
import AggreApi.Lib.SlidingWindow

/-!
# The Redis rate limiter

`redisRateLimiter` and `userRedisRateLimiter` run the same commands on the list of their key, which
holds the times of the requests let in, newest first. Each command is one step, with the clock read
just before it. Times are in milliseconds.
-/

namespace AggreApi

/-- A list of times and the time its key expires, if it does. -/
structure RedisList where
  times : List ℤ
  deadline : Option ℤ
  deriving DecidableEq, Repr

namespace RedisList

def empty : RedisList := ⟨[], none⟩

variable (l : RedisList)

def live (now : ℤ) : RedisList := if ∃ d ∈ l.deadline, d ≤ now then empty else l

def lLen : ℕ := l.times.length

/-- `LINDEX -1`. -/
def lIndexLast : Option ℤ := l.times.getLast?

def lPush (time : ℤ) : RedisList := { l with times := time :: l.times }

/-- `LTRIM 0 (n - 1)` for a positive `n`. -/
def lTrim (n : ℕ) : RedisList := { l with times := l.times.take n }

/-- `EXPIRE`, which does nothing where there is no key and deletes the key where the time is up. -/
def expire (now seconds : ℤ) : RedisList :=
  if l.times = [] then l else live { l with deadline := some (now + 1000 * seconds) } now

end RedisList

/-- `int64(nowTime.Sub(oldTime).Seconds())`. -/
def elapsedSeconds (now old : ℤ) : ℤ := (now - old).tdiv 1000

inductive LimiterVerdict
  | admitted
  | tooManyRequests
  | internalServerError
  deriving DecidableEq, Repr

inductive RedisRequestAt
  | llen
  | lindex
  | lpush (full : Bool)
  | ltrim
  | expire (verdict : LimiterVerdict)
  | done (verdict : LimiterVerdict)
  deriving DecidableEq, Repr

/-- The limit of a key with the expiration of its list, in seconds. -/
structure RedisLimit where
  maxRequestNum : ℕ
  duration : ℤ
  expiration : ℤ

/-- The list, the clock, the requests of the key and the times of those let in. -/
structure RedisLimiterState where
  list : RedisList
  clock : ℤ
  requests : List RedisRequestAt
  admitted : List ℤ

inductive RedisLimiterEvent
  | begin
  | elapse (milliseconds : ℕ)
  | command (i : ℕ)
  deriving DecidableEq

namespace RedisLimiterState

def start (now : ℤ) : RedisLimiterState := ⟨.empty, now, [], []⟩

def next (s : RedisLimiterState) (i : ℕ) (at' : RedisRequestAt) : RedisLimiterState :=
  { s with requests := s.requests.set i at' }

def command (cfg : RedisLimit) (s : RedisLimiterState) (i : ℕ) :
    RedisRequestAt → RedisLimiterState
  | .llen => s.next i (if s.list.lLen < cfg.maxRequestNum then .lpush false else .lindex)
  | .lindex =>
    match s.list.lIndexLast with
    | none => s.next i (.done .internalServerError)
    | some old =>
      if elapsedSeconds s.clock old < cfg.duration then s.next i (.expire .tooManyRequests)
      else s.next i (.lpush true)
  | .lpush full =>
    { s.next i (if full then .ltrim else .expire .admitted) with
      list := s.list.lPush s.clock
      admitted := s.clock :: s.admitted }
  | .ltrim =>
    { s.next i (.expire .admitted) with list := s.list.lTrim cfg.maxRequestNum }
  | .expire verdict =>
    { s.next i (.done verdict) with list := s.list.expire s.clock cfg.expiration }
  | .done _ => s

def step (cfg : RedisLimit) (s : RedisLimiterState) : RedisLimiterEvent → RedisLimiterState
  | .begin => { s with requests := s.requests ++ [.llen] }
  | .elapse ms => { s with clock := s.clock + ms, list := s.list.live (s.clock + ms) }
  | .command i =>
    match s.requests[i]? with
    | some at' => s.command cfg i at'
    | none => s

def pushed : RedisRequestAt → Bool
  | .ltrim => true
  | .expire .admitted => true
  | _ => false

/-- The key does not expire between a request's `LPUSH` and its `EXPIRE`. -/
def lasting (s : RedisLimiterState) : RedisLimiterEvent → Bool
  | .elapse ms =>
    s.list.live (s.clock + ms) = s.list ∨ ∀ at' ∈ s.requests, pushed at' = false
  | _ => true

def roomy (cfg : RedisLimit) (s : RedisLimiterState) : RedisLimiterEvent → Bool
  | .command i =>
    match s.requests[i]? with
    | some (.lpush _) =>
      Window.count (1000 * cfg.duration) s.clock s.list.times < cfg.maxRequestNum
    | _ => true
  | _ => true

end RedisLimiterState

end AggreApi
