import AggreApi.Lib.Run

/-!
# Two-factor authentication side by side

`model/twofa.go` for one user: the backup codes, which `CreateBackupCodes` replaces and
`ValidateBackupCode` uses up, and the row that counts the failed attempts. Calls are cut at their
statements. Rows are soft-deleted, what a transaction writes is seen from its commit on, and a
`Save` whose `UPDATE` matches nothing inserts the row again.
-/

namespace AggreApi

variable (t : TwoFA) (code : String)

/-- The code without separators, in upper case. -/
def cleanCode : List Char := (code.toList.filter (· ≠ '-')).map Char.toUpper

/-- `common.ValidateBackupCode`. -/
def backupCodeFormat : Bool :=
  (cleanCode code).length = 8 &&
    (cleanCode code).all fun c => ('A' ≤ c && c ≤ 'Z') || ('0' ≤ c && c ≤ '9')

def normalizeBackupCode : String :=
  if (cleanCode code).length = 8 then
    String.ofList ((cleanCode code).take 4 ++ '-' :: (cleanCode code).drop 4)
  else code

/-- A row, known by its place; `codeHash` is the normalised code, `batch` says who stored it. -/
structure BackupCode where
  codeHash : String
  isUsed : Bool
  deleted : Bool
  batch : ℕ
deriving DecidableEq

/-- A call that returned true: its row, the row's batch, and the last batch when it selected. -/
structure BackupUse where
  id : ℕ
  batch : ℕ
  latest : ℕ
deriving DecidableEq

/-- The `DELETE` of a regeneration picks its rows when it starts, and then waits for their locks. -/
inductive BackupAt
  | validating (code : String)
  | saving (id latest : ℕ)
  | returned (valid : Bool)
  | creating (codes : List String)
  | deleting (codes : List String) (ids : List ℕ)
  | inserting (codes : List String) (ids : List ℕ) (hashes : List String)
  | created
deriving DecidableEq

structure BackupEvent where
  proc : ℕ
  fail : Bool

structure BackupCodes where
  rows : List BackupCode
  latest : ℕ
  uses : List BackupUse
  procs : List BackupAt

namespace BackupCodes

/-- The rows of a `CreateBackupCodes`. -/
def batchOf (batch : ℕ) (hashes : List String) : List BackupCode :=
  hashes.map fun hash => ⟨hash, false, false, batch⟩

/-- The codes are stored; each given code is validated, and each given list replaces them. -/
def init (codes given : List String) (lists : List (List String)) : BackupCodes :=
  ⟨batchOf 0 (codes.map normalizeBackupCode), 0, [],
    given.map .validating ++ lists.map .creating⟩

variable (s : BackupCodes)

def move (i : ℕ) (pos : BackupAt) : BackupCodes := { s with procs := s.procs.set i pos }

/-- The row is deleted by a transaction that is open. -/
def locked (id : ℕ) : Bool :=
  s.procs.any fun pos => match pos with
    | .inserting _ ids _ => id ∈ ids
    | _ => false

/-- `SELECT`: the first unused code that accepts the given one. -/
def select (s : BackupCodes) (code : String) : Option ℕ :=
  s.rows.findIdx? fun row =>
    !row.deleted && !row.isUsed && row.codeHash = normalizeBackupCode code

def present : List ℕ :=
  (List.range s.rows.length).filter fun id => s.rows[id]?.any fun row => !row.deleted

/-- The `Save` of a used code; it brings a deleted row back. -/
def save (id latest : ℕ) : BackupCodes :=
  match s.rows[id]? with
  | none => s
  | some row =>
    { s with
      rows := s.rows.set id { row with isUsed := true, deleted := false }
      uses := ⟨id, row.batch, latest⟩ :: s.uses }

def commit (ids : List ℕ) (hashes : List String) : BackupCodes :=
  { s with
    rows := (s.rows.mapIdx fun id row => { row with deleted := row.deleted || id ∈ ids })
      ++ batchOf (s.latest + 1) hashes
    latest := s.latest + 1 }

def advance (e : BackupEvent) : BackupAt → BackupCodes
  | .validating code =>
    if !backupCodeFormat code || e.fail then s.move e.proc (.returned false)
    else match s.select code with
      | none => s.move e.proc (.returned false)
      | some id => s.move e.proc (.saving id s.latest)
  | .saving id latest =>
    if s.locked id then s
    else if e.fail then s.move e.proc (.returned false)
    else (s.move e.proc (.returned true)).save id latest
  | .creating codes =>
    if e.fail then s.move e.proc .created else s.move e.proc (.deleting codes s.present)
  | .deleting codes ids =>
    if ids.any s.locked then s else s.move e.proc (.inserting codes ids [])
  | .inserting [] ids hashes =>
    if e.fail then s.move e.proc .created else (s.move e.proc .created).commit ids hashes
  | .inserting (code :: codes) ids hashes =>
    if e.fail then s.move e.proc .created
    else s.move e.proc (.inserting codes ids (hashes ++ [normalizeBackupCode code]))
  | .returned _ | .created => s

def step (e : BackupEvent) : BackupCodes :=
  match s.procs[e.proc]? with
  | none => s
  | some pos => s.advance e pos

/-- A `Save` finds the code unused, and a regeneration commits with every unused code deleted. -/
def careful (e : BackupEvent) : Bool :=
  match s.procs[e.proc]? with
  | some (.saving id _) => s.rows[id]?.all fun row => !row.isUsed
  | some (.inserting [] ids _) => (List.range s.rows.length).all fun id =>
      s.rows[id]?.all fun row => row.deleted || row.isUsed || id ∈ ids
  | _ => true

end BackupCodes

def maxFailAttempts : ℕ := 5

/-- In nanoseconds, as times are. -/
def lockoutDuration : ℤ := 300 * 1000000000

structure TwoFA where
  isEnabled : Bool
  failedAttempts : ℕ
  lockedUntil : Option ℤ
deriving DecidableEq

namespace TwoFA

def isLocked (now : ℤ) : Bool := t.lockedUntil.any fun t => now < t

/-- What `IncrementFailedAttempts` saves. -/
def failed (now : ℤ) : TwoFA :=
  { t with
    failedAttempts := t.failedAttempts + 1
    lockedUntil :=
      if maxFailAttempts ≤ t.failedAttempts + 1 then some (now + lockoutDuration)
      else t.lockedUntil }

def succeeded : TwoFA := { t with failedAttempts := 0, lockedUntil := none }

end TwoFA

/-- Where an attempt or a `DisableTwoFA` is; `removed` says whether its `DELETE` has found the
row. -/
inductive TwoFAAt
  | loading
  | checking (t : TwoFA)
  | saving (t : TwoFA)
  | disabling
  | removing
  | removed (found : Bool)
  | ended
deriving DecidableEq

/-- The call at `proc` takes its next step, at a time; `correct` says what the code it evaluates
is. -/
structure TwoFAEvent where
  proc : ℕ
  now : ℤ
  correct : Bool

/-- The row; `log` has the codes evaluated, newest first, with whether they were right. -/
structure TwoFAState where
  row : Option TwoFA
  clock : ℤ
  log : List (ℤ × Bool)
  disabled : Bool
  procs : List TwoFAAt

variable (s : TwoFAState)

namespace TwoFAState

def init (attempts disables : ℕ) : TwoFAState :=
  ⟨some t, 0, [], false,
    List.replicate attempts .loading ++ List.replicate disables .disabling⟩

def move (i : ℕ) (pos : TwoFAAt) : TwoFAState := { s with procs := s.procs.set i pos }

/-- A transaction that is open has deleted the row. -/
def locked : Bool := TwoFAAt.removed true ∈ s.procs

variable (e : TwoFAEvent)

def advance : TwoFAAt → TwoFAState
  | .loading =>
    match s.row with
    | some t => s.move e.proc (if t.isEnabled then .checking t else .ended)
    | none => s.move e.proc .ended
  | .checking t =>
    if t.isLocked s.clock then s.move e.proc .ended
    else
      { s.move e.proc (.saving (if e.correct then t.succeeded else t.failed s.clock)) with
        log := (s.clock, e.correct) :: s.log }
  | .saving t => if s.locked then s else { s.move e.proc .ended with row := some t }
  | .disabling => s.move e.proc (if s.row.isSome then .removing else .ended)
  | .removing => if s.locked then s else s.move e.proc (.removed s.row.isSome)
  | .removed found =>
    { s.move e.proc .ended with
      row := if found then none else s.row
      disabled := true }
  | .ended => s

def step : TwoFAState :=
  match s.procs[e.proc]? with
  | none => s
  | some pos => { s with clock := max s.clock e.now }.advance e pos

def isSaving : TwoFAAt → Bool
  | .saving _ => true
  | _ => false

/-- A code is evaluated with the row as it stands, and nobody is about to save it then, or when a
`DisableTwoFA` commits. -/
def careful : Bool :=
  match s.procs[e.proc]? with
  | some (.checking t) => s.row = some t && !s.procs.any isSaving
  | some (.removed found) => found && !s.procs.any isSaving
  | _ => true

end TwoFAState

end AggreApi
