import AggreApi.ModelRateLimit

/-!
# The token bucket of the total limit

A call let in takes from what the bucket holds, and what it holds grows with the clock. So the calls
of an interval are paid by a full bucket at its start and by what comes in until its end.
-/

namespace AggreApi.TokenBucket

variable {n d now : ℤ} {b : Option TokenBucket}

/-- A call of the handler with the limit `n` and the duration `d`. -/
def call (n d : ℤ) (b : Option TokenBucket) (now : ℤ) : Bool × TokenBucket :=
  allow b now d n (n * d)

def step (n d : ℤ) (b : Option TokenBucket) (now : ℤ) : Option TokenBucket := (call n d b now).2

def admitted (n d : ℤ) : Option TokenBucket → List ℤ → List ℤ
  | _, [] => []
  | b, now :: times =>
    if (call n d b now).1 then now :: admitted n d (step n d b now) times
    else admitted n d (step n d b now) times

/-- The tokens are within the capacity, and were counted before `now`. -/
def Bounded (n d now : ℤ) (b : Option TokenBucket) : Prop :=
  ∀ x ∈ b, 0 ≤ x.tokens ∧ x.tokens ≤ n * d ∧ x.lastTime ≤ now

/-- What a call can do. -/
structure Pays (n d now : ℤ) (b : Option TokenBucket) (r : Bool × TokenBucket) : Prop where
  time : r.2.lastTime = now
  nonneg : 0 ≤ r.2.tokens
  full : r.2.tokens + (if r.1 then d else 0) ≤ n * d
  grown : ∀ x ∈ b, r.2.tokens + (if r.1 then d else 0) ≤ x.tokens + n * (now - x.lastTime)
  refused : r.1 = false → r.2.tokens < d
  idle : r.1 = false → ∃ x ∈ b, n * (now - x.lastTime) < d

section Calls

variable (hn : 1 ≤ n) (hd : 1 ≤ d)
include hn hd

theorem call_pays (hb : Bounded n d now b) : Pays n d now b (call n d b now) := by
  have hcap : d ≤ n * d := by nlinarith
  cases b with
  | none =>
    simp only [call, allow, if_pos hcap]
    exact ⟨rfl, by simpa using hcap, by simp, by simp, nofun, nofun⟩
  | some x =>
    obtain ⟨hzero, hle, htime⟩ := hb x rfl
    have hgrow : 0 ≤ n * (now - x.lastTime) := mul_nonneg (by omega) (by omega)
    simp only [call, allow, mul_comm (now - x.lastTime)]
    split_ifs with hroom
    all_goals
      refine ⟨rfl, ?_, ?_, ?_, ?_, ?_⟩ <;> simp <;> omega

theorem bounded_step (hb : Bounded n d now b) {t : ℤ} (hle : now ≤ t) :
    Bounded n d t (step n d b now) := by
  have hpays := call_pays hn hd hb
  rintro x ⟨⟩
  have := hpays.full
  exact ⟨hpays.nonneg, by split_ifs at this <;> omega, hpays.time.trans_le hle⟩

theorem bounded_run {times : List ℤ} (hsorted : (times ++ [now]).Pairwise (· ≤ ·))
    (hb : ∀ t ∈ times ++ [now], Bounded n d t b) :
    Bounded n d now (run (step n d) b times) := by
  induction times generalizing b with
  | nil => exact hb now List.mem_cons_self
  | cons t times ih =>
    rw [List.cons_append, List.pairwise_cons] at hsorted
    exact ih hsorted.2 fun u hu => bounded_step hn hd (hb t List.mem_cons_self) (hsorted.1 u hu)

end Calls

def within (s t : ℤ) (times : List ℤ) : ℤ := times.countP fun now => s ≤ now ∧ now ≤ t

/-- What pays for the calls from `s` to `t` that are still to come. -/
def funds (n d s t : ℤ) : Option TokenBucket → ℤ
  | none => n * d + n * (t - s)
  | some x =>
    if x.lastTime < s then n * d + n * (t - s)
    else if x.lastTime ≤ t then x.tokens + n * (t - x.lastTime)
    else 0

variable {s t : ℤ}

theorem within_admitted (now : ℤ) (times : List ℤ) :
    within s t (admitted n d b (now :: times)) =
      (if (call n d b now).1 ∧ s ≤ now ∧ now ≤ t then 1 else 0) +
        within s t (admitted n d (step n d b now) times) := by
  rw [admitted]
  split_ifs with hin hnow hnow
  · simp [within, hnow, add_comm]
  · simp only [hin, true_and] at hnow
    simp [within, hnow]
  · exact absurd hnow.1 hin
  · rw [zero_add]

section Funds

variable (hn : 1 ≤ n) (hd : 1 ≤ d) (hst : s ≤ t)
include hn hd hst

theorem funds_nonneg (hb : Bounded n d now b) : 0 ≤ funds n d s t b := by
  have hfull : 0 ≤ n * d + n * (t - s) :=
    add_nonneg (mul_nonneg (by omega) (by omega)) (mul_nonneg (by omega) (by omega))
  cases b with
  | none => exact hfull
  | some x =>
    simp only [funds]
    split_ifs
    · exact hfull
    · exact add_nonneg (hb x rfl).1 (mul_nonneg (by omega) (by omega))
    · exact le_rfl

theorem funds_step (hb : Bounded n d now b) :
    (if (call n d b now).1 ∧ s ≤ now ∧ now ≤ t then d else 0) + funds n d s t (step n d b now) ≤
      funds n d s t b := by
  have hpays := call_pays hn hd hb
  have hstep : funds n d s t (step n d b now) = if now < s then n * d + n * (t - s)
      else if now ≤ t then (call n d b now).2.tokens + n * (t - now) else 0 := by
    simp only [step, funds, hpays.time]
  rw [hstep]
  by_cases hbefore : now < s
  · have hold : funds n d s t b = n * d + n * (t - s) := by
      cases b with
      | none => rfl
      | some x => exact if_pos ((hb x rfl).2.2.trans_lt hbefore)
    rw [hold, if_pos hbefore, if_neg (by omega), zero_add]
  rw [if_neg hbefore]
  by_cases hafter : now ≤ t
  · have hgain : n * (t - now) ≤ n * (t - s) := mul_le_mul_of_nonneg_left (by omega) (by omega)
    have hfull := hpays.full
    have hgrown := hpays.grown
    simp only [not_lt.1 hbefore, hafter, and_true, if_true]
    generalize (if (call n d b now).1 = true then d else 0) = cost at hfull hgrown ⊢
    cases b with
    | none =>
      simp only [funds]
      linarith
    | some x =>
      have hgrown := hgrown x rfl
      have htime := (hb x rfl).2.2
      simp only [funds, if_pos (htime.trans hafter)]
      split_ifs
      · linarith
      · rw [mul_sub] at hgrown ⊢
        rw [mul_sub]
        linarith
  · have := funds_nonneg hn hd hst hb
    rw [if_neg hafter, if_neg (by omega)]
    omega

theorem funds_run : ∀ {times : List ℤ} {b : Option TokenBucket}, times.Pairwise (· ≤ ·) →
    (∀ now ∈ times, Bounded n d now b) → 0 ≤ funds n d s t b →
    d * within s t (admitted n d b times) ≤ funds n d s t b
  | [], _, _, _, h => by simpa [admitted, within] using h
  | now :: times, b, hsorted, hb, _ => by
    obtain ⟨hle, hrest⟩ := List.pairwise_cons.1 hsorted
    have hnow := hb now List.mem_cons_self
    have hstep := funds_step hn hd hst hnow
    have hnext := bounded_step hn hd hnow le_rfl
    have hrun := funds_run hrest (fun u hu => bounded_step hn hd hnow (hle u hu))
      (funds_nonneg hn hd hst hnext)
    rw [within_admitted, mul_add, mul_ite, mul_one, mul_zero]
    linarith

end Funds

end AggreApi.TokenBucket
