import AggreApi.RateLimit
import AggreApi.RedisLimit

/-!
# The limits on model requests

`ModelRequestRateLimit` with its two handlers, for one user whose requests are handled one at a
time. A request is recorded when it comes back with a status below 400. The clock is in
milliseconds.
-/

namespace AggreApi

/-- What a handler does with a request that arrives. -/
inductive ModelVerdict
  | passed
  | totalLimited
  | successLimited
  | checkFailed
  deriving DecidableEq, Repr

/-- The settings that apply to the user. -/
structure ModelRateLimit where
  durationMinutes : ℤ
  totalMaxCount : ℕ
  successMaxCount : ℕ

variable (cfg : ModelRateLimit) (userId : ℕ)

def ModelRateLimit.duration : ℤ := cfg.durationMinutes * 60

/-- `time.Now().Unix()`. -/
def unixSeconds (milliseconds : ℤ) : ℤ := milliseconds / 1000

/-- A handler over its store. -/
structure RateLimitHandler (β : Type) where
  check : ℤ → β → ModelVerdict × β
  record : ℤ → β → β
  elapse : ℤ → β → β
  clear : β → β

/-- `checkRedisRateLimit`; the error is that of parsing a time that is not there. -/
def checkRedisRateLimit (now : ℤ) (l : RedisList) : Option Bool × RedisList :=
  if cfg.successMaxCount = 0 then (some true, l)
  else if l.lLen < cfg.successMaxCount then (some true, l)
  else
    match l.lIndexLast with
    | none => (none, l)
    | some old =>
      if elapsedSeconds now old < cfg.duration then
        (some false, l.expire now (cfg.durationMinutes * 60))
      else (some true, l)

def recordRedisRequest (now : ℤ) (l : RedisList) : RedisList :=
  if cfg.successMaxCount = 0 then l
  else ((l.lPush now).lTrim cfg.successMaxCount).expire now (cfg.durationMinutes * 60)

structure TokenBucket where
  tokens : ℤ
  lastTime : ℤ
  deriving DecidableEq, Repr

/-- The script of `limiter.Allow`. -/
def TokenBucket.allow (bucket : Option TokenBucket) (now requested rate capacity : ℤ) :
    Bool × TokenBucket :=
  let tokens :=
    match bucket with
    | none => capacity
    | some b => min capacity (b.tokens + (now - b.lastTime) * rate)
  if requested ≤ tokens then (true, ⟨tokens - requested, now⟩) else (false, ⟨tokens, now⟩)

structure RedisModelStore where
  success : RedisList
  bucket : Option TokenBucket
  deriving DecidableEq, Repr

/-- A request over the total limit is answered and `c.Next()` then runs no further handler. -/
def redisRateLimitHandler : RateLimitHandler RedisModelStore where
  check now store :=
    match checkRedisRateLimit cfg now store.success with
    | (none, l) => (.checkFailed, { store with success := l })
    | (some false, l) => (.successLimited, { store with success := l })
    | (some true, l) =>
      if 0 < cfg.totalMaxCount then
        let answer := TokenBucket.allow store.bucket (unixSeconds now) cfg.duration
          cfg.totalMaxCount (cfg.totalMaxCount * cfg.duration)
        (if answer.1 then .passed else .totalLimited, ⟨l, some answer.2⟩)
      else (.passed, { store with success := l })
  record now store := { store with success := recordRedisRequest cfg now store.success }
  elapse now store := { store with success := store.success.live now }
  clear store := store

def modelTotalKey : String := "MRRL" ++ toString userId

def modelSuccessKey : String := "MRRLS" ++ toString userId

def modelCheckKey : String := modelSuccessKey userId ++ "_check"

/-- What the handler passes to `Request` with its keys. -/
def ModelRateLimit.limits (key : String) : RateLimit :=
  if key = modelTotalKey userId then ⟨cfg.totalMaxCount, cfg.duration⟩
  else ⟨cfg.successMaxCount, cfg.duration⟩

def LimiterState.allows (limits : String → RateLimit) (s : LimiterState) (key : String) : Bool :=
  (s.limiter.request key (limits key).maxRequestNum (limits key).duration s.clock).1

def memoryRateLimitHandler : RateLimitHandler LimiterState where
  check _ s :=
    let limits := cfg.limits userId
    if 0 < cfg.totalMaxCount ∧ s.allows limits (modelTotalKey userId) = false then
      (.totalLimited, s.request limits (modelTotalKey userId))
    else
      let s := if 0 < cfg.totalMaxCount then s.request limits (modelTotalKey userId) else s
      (if s.allows limits (modelCheckKey userId) then .passed else .successLimited,
        s.request limits (modelCheckKey userId))
  record _ s := s.request (cfg.limits userId) (modelSuccessKey userId)
  elapse now s := { s with clock := unixSeconds now }
  clear s := s.clear

/-- The store, the clock, a request being handled and the times of successes, newest first. -/
structure ModelLimitState (β : Type) where
  store : β
  clock : ℤ
  inFlight : Bool
  succeeded : List ℤ

inductive ModelLimitEvent
  | arrive
  | finish (status : ℕ)
  | elapse (milliseconds : ℕ)
  | clearExpiredItems
  deriving DecidableEq

namespace ModelLimitState

variable {β : Type}

def start (store : β) (now : ℤ) : ModelLimitState β := ⟨store, now, false, []⟩

def step (handler : RateLimitHandler β) (s : ModelLimitState β) :
    ModelLimitEvent → ModelLimitState β
  | .arrive =>
    if s.inFlight then s
    else
      let answer := handler.check s.clock s.store
      { s with store := answer.2, inFlight := answer.1 = .passed }
  | .finish status =>
    if s.inFlight then
      if status < 400 then
        { s with
          store := handler.record s.clock s.store
          inFlight := false
          succeeded := s.clock :: s.succeeded }
      else { s with inFlight := false }
    else s
  | .elapse ms =>
    { s with clock := s.clock + ms, store := handler.elapse (s.clock + ms) s.store }
  | .clearExpiredItems => { s with store := handler.clear s.store }

def verdict (handler : RateLimitHandler β) (s : ModelLimitState β) : ModelVerdict :=
  (handler.check s.clock s.store).1

end ModelLimitState

def limitReached (n : ℕ) (width now : ℤ) (succeeded : List ℤ) : Prop :=
  0 < n ∧ n ≤ Window.count width now succeeded

instance (n : ℕ) (width now : ℤ) (succeeded : List ℤ) :
    Decidable (limitReached n width now succeeded) :=
  inferInstanceAs (Decidable (_ ∧ _))

/-- Each request that is handed on comes back in its second, with success; none is over the total
limit; and the goroutine keeps what is in the window. -/
def ModelLimitState.countable (s : ModelLimitState LimiterState) : ModelLimitEvent → Bool
  | .arrive =>
    s.inFlight ∨ cfg.totalMaxCount = 0 ∨
      s.store.allows (cfg.limits userId) (modelTotalKey userId) = true
  | .finish status => status < 400
  | .elapse ms => s.inFlight = true → unixSeconds (s.clock + ms) = unixSeconds s.clock
  | .clearExpiredItems =>
    s.store.limiter.expirationDuration ≤ 0 ∨
      cfg.duration ≤ s.store.limiter.expirationDuration + 1

end AggreApi
