import AggreApi.Lib.Procs
import AggreApi.Lib.Run

/-!
# The usage statistics

`model/usedata.go`: processes that add events to their caches and save these to one table, cut at
the statements. The cache's lock is held through a save. All that was logged stands beside.
-/

namespace AggreApi

/-- What the `WHERE` of the statements compares. -/
structure QuotaKey where
  userId : ℤ
  username : String
  modelName : String
  createdAt : ℤ
  deriving DecidableEq

def QuotaKey.text (k : QuotaKey) : String :=
  toString k.userId ++ "-" ++ k.username ++ "-" ++ k.modelName ++ "-" ++ toString k.createdAt

abbrev QuotaData := QuotaKey × ℤ × ℤ × ℤ

def usageTotal (k : QuotaKey) (rows : List QuotaData) : ℤ × ℤ × ℤ :=
  (rows.map fun r => if r.1 = k then r.2 else 0).sum

def logQuotaDataCache (d : QuotaData) : List QuotaData → List QuotaData
  | [] => [d]
  | e :: cache =>
    if e.1.text = d.1.text then (e.1, e.2 + d.2) :: cache else e :: logQuotaDataCache d cache

def increaseQuotaData (d : QuotaData) (rows : List QuotaData) : List QuotaData :=
  rows.map fun r => if r.1 = d.1 then (r.1, r.2 + d.2) else r

/-- `SaveQuotaDataCache` is about to select for an entry, or to write one for which the `SELECT` has
found a row or not. -/
inductive QuotaAt where
  | idle
  | saving
  | writing (d : QuotaData) (found : Bool)
  deriving DecidableEq

/-- A process, with what of its cache is not saved yet. -/
structure QuotaProc where
  cache : List QuotaData := []
  pos : QuotaAt := .idle
  deriving DecidableEq

structure UsageStats where
  rows : List QuotaData := []
  procs : List QuotaProc
  logged : List QuotaData := []

/-- Entries are saved in any order. -/
inductive StatsEvent where
  | log (k : QuotaKey) (quota tokenUsed : ℤ)
  | save
  | select (j : ℕ)
  | write
  | finish

/-- What `LogQuotaData` logs, by the hour. -/
def quotaEvent (k : QuotaKey) (quota tokenUsed : ℤ) : QuotaData :=
  ({ k with createdAt := k.createdAt - k.createdAt.tmod 3600 }, 1, quota, tokenUsed)

namespace UsageStats

def init (n : ℕ) : UsageStats := { procs := List.replicate n {} }

def set (s : UsageStats) (i : ℕ) (cache : List QuotaData) (pos : QuotaAt) : UsageStats :=
  { s with procs := s.procs.set i ⟨cache, pos⟩ }

/-- The next statement of a process; none while its lock is held elsewhere. -/
def act (s : UsageStats) (i : ℕ) (p : QuotaProc) (e : StatsEvent) : UsageStats :=
  match p.pos, e with
  | .idle, .log k quota tokenUsed =>
    let d := quotaEvent k quota tokenUsed
    { s.set i (logQuotaDataCache d p.cache) .idle with logged := d :: s.logged }
  | .idle, .save => s.set i p.cache .saving
  | .saving, .select j =>
    match p.cache[j]? with
    | some d => s.set i (p.cache.eraseIdx j) (.writing d (s.rows.any (·.1 = d.1)))
    | none => s
  | .writing d found, .write =>
    { s.set i p.cache .saving with
      rows := if found then increaseQuotaData d s.rows else d :: s.rows }
  | .saving, .finish => if p.cache = [] then s.set i [] .idle else s
  | _, _ => s

def step (s : UsageStats) (e : ℕ × StatsEvent) : UsageStats :=
  match s.procs[e.1]? with
  | some p => s.act e.1 p e.2
  | none => s

/-- An event is logged where its cache has no other entry under its text, and a row is inserted
where the table has none with its key. -/
def careful (s : UsageStats) (e : ℕ × StatsEvent) : Bool :=
  match s.procs[e.1]?, e.2 with
  | some ⟨cache, .idle⟩, .log k quota tokenUsed =>
    let d := quotaEvent k quota tokenUsed
    cache.all fun c => c.1.text ≠ d.1.text || c.1 = d.1
  | some ⟨_, .writing d false⟩, .write => s.rows.all (·.1 ≠ d.1)
  | _, _ => true

/-- An event is logged where its cache has no other entry under its text. -/
def unmixed (s : UsageStats) (e : ℕ × StatsEvent) : Bool :=
  match s.procs[e.1]?, e.2 with
  | some ⟨cache, .idle⟩, .log k quota tokenUsed =>
    let d := quotaEvent k quota tokenUsed
    cache.all fun c => c.1.text ≠ d.1.text || c.1 = d.1
  | _, _ => true

end UsageStats
end AggreApi
