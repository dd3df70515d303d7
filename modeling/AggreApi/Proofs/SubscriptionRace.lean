import AggreApi.SubscriptionRace
import AggreApi.Proofs.Subscription

/-!
# No debit is lost where every save finds what was read

The used amount of every row is the initial one plus what was committed, in every run where each
`Save` still finds the used amount its call has read; a `Save` that does not writes over the others.
-/

namespace AggreApi

open UserSubscription

def SubStep.delta (r : SubStep) (id : ℕ) : ℤ :=
  match r.commit with
  | some (k, delta) => if id = k then delta else 0
  | none => 0

namespace SubProc

/-- The first of the candidates with room, which a pre-consume debits where none is due a
reset. -/
def candidate (amount : ℤ) (subs : List UserSubscription) : Option UserSubscription :=
  subs.find? (·.hasRoom amount)

def noReset (env : SubscriptionEnv) (subs : List UserSubscription) : Bool :=
  subs.all fun c => match env.plan c.planId with
    | .ok plan => maybeResetUserSubscriptionWithPlanTx env c plan = some (c, false)
    | .error _ => true

variable {env : SubscriptionEnv} {owner : PreConsumeOwner} {requestId : String} {amount : ℤ}
  {db : Subscriptions}

theorem preConsumeLoop_of_noReset
    {f : PreConsumeFaults}
    {x : Subscriptions × SubscriptionPreConsumeResult} :
    ∀ {subs : List UserSubscription}, noReset env subs = true →
    preConsumeLoop env owner f requestId amount subs db = some (.ok x) →
    ∃ sub, candidate amount subs = some sub ∧
      debitCandidate owner f requestId amount db sub = .ok x
  | [], _, h => absurd h (by simp [preConsumeLoop])
  | c :: subs, hn, h => by
    simp only [noReset, List.all_cons, Bool.and_eq_true] at hn
    obtain ⟨hc, hn⟩ := hn
    obtain ⟨plan, sub, saved, hplan, hreset, h⟩ := preConsumeLoop_cons h
    simp only [hplan, decide_eq_true_eq] at hc
    obtain ⟨rfl, rfl⟩ := Prod.mk.inj (Option.some.inj (hc.symm.trans hreset))
    rcases h with ⟨hroom, h⟩ | ⟨hroom, h⟩
    · exact ⟨c, by simp [candidate, hroom], h⟩
    · obtain ⟨sub, hsub, hd⟩ := preConsumeLoop_of_noReset hn h
      exact ⟨sub, by simpa [candidate, hroom] using hsub, hd⟩

/-- The tables still hold the used amount a call has read. -/
def current (db : Subscriptions) (sub : UserSubscription) : Bool :=
  (db.subs.find sub.id).map amountUsed = some sub.amountUsed

/-- The step is not a `Save` that writes over another. -/
def fresh (db : Subscriptions) : SubProc → Bool
  | .debiting env _ _ amount subs => noReset env subs && (candidate amount subs).all (current db)
  | .adjusting delta sub _ => current db sub && 0 ≤ sub.amountUsed + delta
  | _ => true

theorem col_put_current {sub sub' : UserSubscription} {delta : ℤ}
    (hc : current db sub = true) (hid : sub'.id = sub.id)
    (hu : sub'.amountUsed = sub.amountUsed + delta) (id : ℕ) :
    (db.subs.put sub').col amountUsed id =
      db.subs.col amountUsed id + if id = sub.id then delta else 0 := by
  obtain ⟨row, hrow, hused⟩ := Option.map_eq_some_iff.1 (of_decide_eq_true hc)
  rw [Table.col_put amountUsed (r := row) (by rw [hid]; exact hrow), hid]
  split_ifs <;> omega

variable {e : SubEvent}

theorem col_debiting {subs : List UserSubscription}
    (hf : (debiting env owner requestId amount subs).fresh db = true) (id : ℕ) :
    ((debiting env owner requestId amount subs).advance e db).db.subs.col
        amountUsed id = db.subs.col amountUsed id +
      ((debiting env owner requestId amount subs).advance e db).delta id := by
  simp only [fresh, Bool.and_eq_true] at hf
  simp only [advance]
  split
  · rename_i db' r hloop _
    obtain ⟨sub, hsub, hdebit⟩ := preConsumeLoop_of_noReset hf.1 hloop
    rcases hr : db.records.find requestId with _ | dup
    · obtain ⟨hsubs, -, rfl⟩ := debitCandidate_ok hr hdebit
      simp only [Option.isNone_none, if_true, SubStep.delta, hsubs]
      exact col_put_current (by simpa [hsub] using hf.2) (debit_id sub amount)
        (debit_used sub amount) id
    · simp only [debitCandidate, hr] at hdebit
      rcases hd : duplicateResult sub dup with err | res <;> rw [hd] at hdebit
      · exact absurd hdebit (by simp [Except.map])
      · simp only [Except.map, Except.ok.injEq, Prod.mk.injEq] at hdebit
        obtain ⟨rfl, -⟩ := hdebit
        simp [SubStep.delta]
  · simp [SubStep.delta]

theorem col_advance {p : SubProc} (hf : p.fresh db = true)
    (id : ℕ) :
    (p.advance e db).db.subs.col amountUsed id =
      db.subs.col amountUsed id + (p.advance e db).delta id := by
  cases p with
  | calling c => cases c <;> simp [advance, SubStep.delta]
  | debiting => exact col_debiting hf id
  | returning record | ended => simp [advance, SubStep.delta]
  | adjusting delta sub =>
    simp only [fresh, Bool.and_eq_true, decide_eq_true_eq] at hf
    simp only [advance]
    split
    · rename_i sub' _ ha
      obtain rfl := adjust_ok ha
      have hused : (sub.shift delta).amountUsed = sub.amountUsed + delta := by
        rw [shift_used, max_eq_right hf.2]
      exact col_put_current hf.1 (shift_id sub delta) hused id
    · simp [SubStep.delta]
  | marking =>
    simp only [advance]
    split <;> simp [SubStep.delta]

end SubProc

namespace SubRace

def fresh (s : SubRace) (e : SubEvent) : Prop := s.procs[e.proc]?.all (·.fresh s.db) = true

theorem used_step {s : SubRace} {e : SubEvent} (hf : s.fresh e) (id : ℕ) :
    (s.step e).used id - (s.step e).committed id = s.used id - s.committed id := by
  unfold step
  split
  · rfl
  · rename_i p hp
    have h := SubProc.col_advance (e := e) (p := p) (by simpa [fresh, hp] using hf) id
    simp only [used, h, SubStep.delta]
    rcases (p.advance e s.db).commit with _ | ⟨k, delta⟩
    · simp
    · simp only [Function.update_apply]
      split_ifs with hk
      · rw [hk]
        omega
      · omega

/-- In every run whose saves all find what was read, the used amount of each row is what it was
plus what has been committed to it. -/
theorem used_eq_committed (db : Subscriptions) (calls : List SubCall) (es : List SubEvent)
    (h : Along step fresh (init db calls) es) (id : ℕ) :
    (run step (init db calls) es).used id =
      (init db calls).used id + (run step (init db calls) es).committed id := by
  have hinv := h.run_inv
    (I := fun s => s.used id - s.committed id = (init db calls).used id)
    (fun s e hs he => (used_step he id).trans hs) (by simp [init])
  omega

def twoCalls : List SubCall := [.preConsumeUser "a" 7 30, .preConsumeUser "b" 7 10]

def next (k : ℕ) : SubEvent := ⟨k, noonEnv, noPreConsumeFaults, none⟩

theorem used_after_two_calls :
    (run step (init sampleSubs twoCalls) [next 0, next 0, next 1, next 1]).committed 1 = 40 ∧
    (run step (init sampleSubs twoCalls) [next 0, next 0, next 1, next 1]).used 1 =
      (init sampleSubs twoCalls).used 1 +
        (run step (init sampleSubs twoCalls) [next 0, next 0, next 1, next 1]).committed 1 :=
  ⟨by decide, used_eq_committed sampleSubs twoCalls [next 0, next 0, next 1, next 1]
    ⟨rfl, rfl, rfl, rfl, trivial⟩ 1⟩

/-- Both requests read the row before either saves it, and the debit of the first is lost. -/
theorem debit_lost : (init sampleSubs twoCalls).used 1 = 20 ∧
    (run step (init sampleSubs twoCalls) [next 0, next 1, next 0, next 1]).committed 1 = 40 ∧
    (run step (init sampleSubs twoCalls) [next 0, next 1, next 0, next 1]).used 1 = 30 := by
  decide

end SubRace

end AggreApi
