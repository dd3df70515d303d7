import AggreApi.Lib.Dict
import AggreApi.Lib.Procs

/-!
# The hash of one cache key

The Redis hash behind a user or token key. `RedisHIncrBy` and `RedisHSetField` first ask for the
key's TTL and then write one field, so that others can come in between. A key without fields does
not exist; it may run out at any time.
-/

namespace AggreApi

inductive CacheKind
  | user
  | token
  deriving DecidableEq, Repr

/-- The fields `RedisHSetObj` writes of a `UserBase` and of a `Token`. -/
def CacheKind.fields : CacheKind → List String
  | user => ["Id", "Group", "Email", "Quota", "Status", "Username", "Setting"]
  | token => ["Id", "UserId", "TeamId", "Key", "Status", "Name", "CreatedTime", "AccessedTime",
      "ExpiredTime", "RemainQuota", "UnlimitedQuota", "ModelLimitsEnabled", "ModelLimits",
      "AllowIps", "UsedQuota", "Group", "CrossGroupRetry"]

/-- The write of one field: `HINCRBY` or `HSET`. -/
inductive FieldWrite
  | incr (field : String) (delta : ℤ)
  | set (field value : String)
  deriving DecidableEq

namespace FieldWrite

def field : FieldWrite → String
  | incr field _ => field
  | set field _ => field

/-- `HINCRBY` takes a missing field as zero and fails on one that is not a number. -/
def apply (hash : AList fun _ : String => String) : FieldWrite → AList fun _ : String => String
  | incr field delta =>
    match hash.lookup field with
    | none => hash.insert field (toString delta)
    | some value =>
      match value.toInt? with
      | some n => hash.insert field (toString (n + delta))
      | none => hash
  | set field value => hash.insert field value

end FieldWrite

/-- An object is given by the texts of its fields. -/
inductive CacheOp
  | redisHSetObj (obj : String → String)
  | redisHWrite (write : FieldWrite)
  | redisDelKey

/-- Where an operation is: before its first command; with the TTL read, before the write; over. -/
inductive CacheAt
  | starting (op : CacheOp)
  | writing (write : FieldWrite)
  | ended

/-- The operation at `proc` takes its next step, or the key runs out. -/
inductive CacheEvent
  | proc (i : ℕ) (ttl : ℤ)
  | expire

structure CacheRace where
  hash : AList fun _ : String => String
  procs : List CacheAt

variable (s : CacheRace)

namespace CacheRace

def init (ops : List CacheOp) : CacheRace := ⟨∅, ops.map .starting⟩

def present : Bool := s.hash.entries ≠ []

def move (i : ℕ) (pos : CacheAt) : CacheRace := { s with procs := s.procs.set i pos }

def advance (kind : CacheKind) (s : CacheRace) (i : ℕ) (ttl : ℤ) : CacheAt → CacheRace
  | .starting (.redisHSetObj obj) =>
    { s.move i .ended with hash := insertAll s.hash (kind.fields.map fun f => (f, obj f)) }
  | .starting .redisDelKey => { s.move i .ended with hash := ∅ }
  | .starting (.redisHWrite write) =>
    if s.present ∧ 0 < ttl then s.move i (.writing write) else s.move i .ended
  | .writing write => { s.move i .ended with hash := write.apply s.hash }
  | .ended => s

def step (kind : CacheKind) (s : CacheRace) : CacheEvent → CacheRace
  | .proc i ttl =>
    match s.procs[i]? with
    | none => s
    | some pos => s.advance kind i ttl pos
  | .expire => { s with hash := ∅ }

/-- `RedisHGetObj`: an error without the key; a field that is missing stays zero. -/
def redisHGetObj (kind : CacheKind) (s : CacheRace) : Option (List (String × Option String)) :=
  if s.present then some (kind.fields.map fun f => (f, s.hash.lookup f)) else none

def found : CacheEvent → Bool
  | .proc i _ =>
    match s.procs[i]? with
    | some (.writing _) => s.present
    | _ => true
  | .expire => true

end CacheRace

end AggreApi
