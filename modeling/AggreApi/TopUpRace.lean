import AggreApi.TopUp
import AggreApi.Lib.Procs

/-!
# Completions of one order side by side

Any number of completions of one order, on any number of servers, each cut where others can come in
between. On one server `LockOrder` lets one of them in at a time. The `SELECT` locks nothing, the
`Save` of a transaction writes the whole row and locks it until the commit, and another `Save` waits
for that; each `UPDATE` of the Epay notification is committed at once.
-/

namespace AggreApi

/-- Which completion runs: one of those with a transaction, by its rule, or the Epay
notification. -/
inductive Completion
  | tx (rule : RechargeRule)
  | epay

namespace Completion

def quotaToAdd : Completion → ℚ → TopUp → ℚ
  | tx rule => rule.quotaToAdd
  | epay => amountQuota

def accepts (c : Completion) (quotaPerUnit : ℚ) (topUp : TopUp) : Bool :=
  match c with
  | tx rule =>
    topUp.status = .pending ∧ ¬(rule.positive ∧ rule.quotaToAdd quotaPerUnit topUp ≤ 0)
  | epay => topUp.status = .pending

end Completion

/-- Waiting for `LockOrder`; before the `SELECT`; with the row read; saved and credited in its
transaction; for Epay, saved and not yet credited; over. -/
inductive CompletionAt
  | starting
  | reading
  | saving (topUp : TopUp)
  | crediting (topUp : TopUp)
  | committing (topUp : TopUp)
  | increasing (topUp : TopUp)
  | ended

namespace CompletionAt

def active : CompletionAt → Bool
  | starting | ended => false
  | _ => true

def inTx : CompletionAt → Bool
  | crediting _ | committing _ => true
  | _ => false

def owing : CompletionAt → Bool
  | increasing _ => true
  | _ => false

end CompletionAt

structure CompletionProc where
  server : ℕ
  completion : Completion
  quotaPerUnit : ℚ
  pos : CompletionAt

def CompletionProc.quotaToAdd (p : CompletionProc) : TopUp → ℚ :=
  p.completion.quotaToAdd p.quotaPerUnit

structure CompletionEvent where
  proc : ℕ
  now : ℤ
  fail : Bool

/-- The order as committed, and what has been credited for it. -/
structure TopUpRace where
  topUp : TopUp
  credits : List ℚ
  procs : List CompletionProc

namespace TopUpRace

def init (topUp : TopUp) (started : List (ℕ × Completion × ℚ)) : TopUpRace :=
  ⟨topUp, [], started.map fun c => ⟨c.1, c.2.1, c.2.2, .starting⟩⟩

variable (s : TopUpRace)

def held (server : ℕ) : Bool := s.procs.any fun p => p.server = server ∧ p.pos.active

def locked : Bool := s.procs.any fun p => p.pos.inTx

def move (i : ℕ) (p : CompletionProc) (pos : CompletionAt) : TopUpRace :=
  { s with procs := s.procs.set i { p with pos := pos } }

def succeeded (topUp : TopUp) (now : ℤ) : TopUp :=
  { topUp with completeTime := now, status := .success }

def save (topUp : TopUp) : TopUpRace := { s with topUp := topUp }

def credit (quota : ℚ) : TopUpRace := { s with credits := quota :: s.credits }

def advance (e : CompletionEvent) (p : CompletionProc) : TopUpRace :=
  match p.pos with
  | .starting => if s.held p.server then s else s.move e.proc p .reading
  | .reading =>
    if e.fail ∨ !p.completion.accepts p.quotaPerUnit s.topUp then s.move e.proc p .ended
    else s.move e.proc p (.saving s.topUp)
  | .saving topUp =>
    if s.locked then s
    else if e.fail then s.move e.proc p .ended
    else
      let saved := succeeded topUp e.now
      match p.completion with
      | .tx _ => s.move e.proc p (.crediting saved)
      | .epay => (s.move e.proc p (.increasing saved)).save saved
  | .crediting topUp =>
    if e.fail then s.move e.proc p .ended else s.move e.proc p (.committing topUp)
  | .committing topUp =>
    if e.fail then s.move e.proc p .ended
    else ((s.move e.proc p .ended).save topUp).credit (p.quotaToAdd topUp)
  | .increasing topUp =>
    if e.fail ∨ p.quotaToAdd topUp < 0 then s.move e.proc p .ended
    else (s.move e.proc p .ended).credit (p.quotaToAdd topUp)
  | .ended => s

def step (e : CompletionEvent) : TopUpRace :=
  match s.procs[e.proc]? with
  | none => s
  | some p => s.advance e p

/-- A `Save` that is let through finds the committed order still pending. -/
def careful (e : CompletionEvent) : Bool :=
  match s.procs[e.proc]? with
  | some ⟨_, _, _, .saving _⟩ => s.locked ∨ s.topUp.status = .pending
  | _ => true

end TopUpRace

end AggreApi
