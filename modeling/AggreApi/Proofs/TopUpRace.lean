import AggreApi.TopUpRace

/-!
# An order is credited once while every `Save` finds it pending

What has been credited, what an Epay notification still owes and what a transaction is about to
commit are together at most one: a `Save` that finds the order pending is the first. Two servers
can both read the order as pending, and then both credit it; `LockOrder` lets each server credit it
once at most.
-/

namespace AggreApi

open CompletionAt

/-- The completion has read the order as pending and may still credit it. -/
def CompletionAt.claims : CompletionAt → Bool
  | starting | reading | ended => false
  | _ => true

namespace TopUpRace

def Saved : CompletionAt → Prop
  | .crediting topUp | .committing topUp => topUp.status = .success
  | _ => True

/-- How many notifications still owe the credit of the order they saved. -/
def debts (s : TopUpRace) : ℕ := s.procs.countP fun p => p.pos.owing

/-- How many open transactions have written the order. -/
def writers (s : TopUpRace) : ℕ := s.procs.countP fun p => p.pos.inTx

/-- At most one credit is made, owed or about to be committed, and none while the order is
pending. -/
structure Inv (s : TopUpRace) : Prop where
  once : s.credits.length + s.debts + s.writers ≤ 1
  fresh : s.topUp.status = .pending → s.credits = [] ∧ s.debts = 0
  saved : ∀ p ∈ s.procs, Saved p.pos

theorem Inv.init (topUp : TopUp) (started : List (ℕ × Completion × ℚ)) :
    (init topUp started).Inv := by
  have hdebts : (TopUpRace.init topUp started).debts = 0 := by
    simp [debts, TopUpRace.init, List.countP_map, Function.comp_def, owing]
  have hwriters : (TopUpRace.init topUp started).writers = 0 := by
    simp [writers, TopUpRace.init, List.countP_map, Function.comp_def, inTx]
  refine ⟨?_, fun _ => ⟨rfl, hdebts⟩, ?_⟩
  · rw [hdebts, hwriters]
    exact Nat.zero_le 1
  · intro p hp
    obtain ⟨c, -, rfl⟩ := List.mem_map.1 hp
    trivial

section Step

variable {s : TopUpRace} {i : ℕ} {p : CompletionProc} {pos : CompletionAt} {b b' : Bool}

theorem saved_move (h : ∀ q ∈ s.procs, Saved q.pos) (hpos : Saved pos) :
    ∀ q ∈ (s.move i p pos).procs, Saved q.pos := by
  intro q hq
  rcases List.mem_or_eq_of_mem_set hq with hold | rfl
  · exact h q hold
  · exact hpos

theorem debts_move (hp : s.procs[i]? = some p) (hb : p.pos.owing = b) (hb' : pos.owing = b') :
    (s.move i p pos).debts + (if b then 1 else 0) = s.debts + if b' then 1 else 0 := by
  have h := countP_set_add { p with pos := pos } (fun q => q.pos.owing) hp
  rwa [hb, hb'] at h

theorem writers_move (hp : s.procs[i]? = some p) (hb : p.pos.inTx = b) (hb' : pos.inTx = b') :
    (s.move i p pos).writers + (if b then 1 else 0) = s.writers + if b' then 1 else 0 := by
  have h := countP_set_add { p with pos := pos } (fun q => q.pos.inTx) hp
  rwa [hb, hb'] at h

theorem writers_of_not_locked (h : s.locked = false) : s.writers = 0 := by
  rw [writers, List.countP_eq_zero]
  intro p hp hin
  have : s.locked = true := List.any_eq_true.2 ⟨p, hp, hin⟩
  rw [h] at this
  cases this

theorem Inv.move (h : s.Inv) (hp : s.procs[i]? = some p)
    (hin : pos.inTx = true → p.pos.inTx = true) (how : pos.owing = false) (hpos : Saved pos) :
    (s.move i p pos).Inv := by
  have hdebts := debts_move hp rfl how
  have hwriters : (s.move i p pos).writers + _ = _ := writers_move hp rfl rfl
  have hle : (if pos.inTx then 1 else 0) ≤ if p.pos.inTx then 1 else 0 := by
    split_ifs with h₁ h₂ <;> simp_all
  rw [if_neg Bool.false_ne_true] at hdebts
  have honce := h.once
  refine ⟨?_, fun hpend => ?_, saved_move h.saved hpos⟩
  · change s.credits.length + _ + _ ≤ 1
    omega
  · obtain ⟨hc, ho⟩ := h.fresh hpend
    exact ⟨hc, by omega⟩

section
variable (h : s.Inv) (hp : s.procs[i]? = some p)
include h hp

theorem Inv.save_tx {topUp : TopUp} (hpos : p.pos = .saving topUp) (hl : s.locked = false)
    (hpend : s.topUp.status = .pending) (now : ℤ) :
    (s.move i p (.crediting (succeeded topUp now))).Inv := by
  have hdebts : (s.move i p (.crediting (succeeded topUp now))).debts + 0 = s.debts + 0 :=
    debts_move hp (by rw [hpos]) rfl
  have hwriters : (s.move i p (.crediting (succeeded topUp now))).writers + 0 = s.writers + 1 :=
    writers_move hp (by rw [hpos]) rfl
  rw [writers_of_not_locked hl] at hwriters
  obtain ⟨hc, ho⟩ := h.fresh hpend
  refine ⟨?_, fun _ => ⟨hc, by omega⟩, saved_move h.saved rfl⟩
  have hlen : s.credits.length = 0 := by rw [hc, List.length_nil]
  change s.credits.length + _ + _ ≤ 1
  omega

theorem Inv.save_epay {topUp : TopUp} (hpos : p.pos = .saving topUp) (hl : s.locked = false)
    (hpend : s.topUp.status = .pending) (now : ℤ) :
    ((s.move i p (.increasing (succeeded topUp now))).save (succeeded topUp now)).Inv := by
  have hdebts : (s.move i p (.increasing (succeeded topUp now))).debts + 0 = s.debts + 1 :=
    debts_move hp (by rw [hpos]) rfl
  have hwriters : (s.move i p (.increasing (succeeded topUp now))).writers + 0 = s.writers + 0 :=
    writers_move hp (by rw [hpos]) rfl
  rw [writers_of_not_locked hl] at hwriters
  obtain ⟨hc, ho⟩ := h.fresh hpend
  refine ⟨?_, nofun, saved_move h.saved trivial⟩
  have hlen : s.credits.length = 0 := by rw [hc, List.length_nil]
  change s.credits.length + (s.move i p _).debts + (s.move i p _).writers ≤ 1
  omega

theorem Inv.commit {topUp : TopUp} (hpos : p.pos = .committing topUp) (quota : ℚ) :
    (((s.move i p .ended).save topUp).credit quota).Inv := by
  have hdebts : (s.move i p .ended).debts + 0 = s.debts + 0 :=
    debts_move hp (by rw [hpos]) rfl
  have hwriters : (s.move i p .ended).writers + 1 = s.writers + 0 :=
    writers_move hp (by rw [hpos]) rfl
  have hsaved : Saved p.pos := h.saved p (List.mem_of_getElem? hp)
  have hsuccess : topUp.status = .success := by rwa [hpos] at hsaved
  have honce := h.once
  refine ⟨?_, fun hs => ?_, saved_move h.saved trivial⟩
  · change (s.credits.length + 1) + (s.move i p _).debts + (s.move i p _).writers ≤ 1
    omega
  · change topUp.status = .pending at hs
    rw [hsuccess] at hs
    cases hs

theorem Inv.increase {topUp : TopUp} (hpos : p.pos = .increasing topUp) (quota : ℚ) :
    ((s.move i p .ended).credit quota).Inv := by
  have hdebts : (s.move i p .ended).debts + 1 = s.debts + 0 :=
    debts_move hp (by rw [hpos]) rfl
  have hwriters : (s.move i p .ended).writers + 0 = s.writers + 0 :=
    writers_move hp (by rw [hpos]) rfl
  have honce := h.once
  refine ⟨?_, fun hs => ?_, saved_move h.saved trivial⟩
  · change (s.credits.length + 1) + (s.move i p _).debts + (s.move i p _).writers ≤ 1
    omega
  · have hzero := (h.fresh hs).2
    omega

end

theorem Inv.advance (h : s.Inv) (e : CompletionEvent) (hp : s.procs[e.proc]? = some p)
    (hc : s.careful e = true) : (s.advance e p).Inv := by
  unfold TopUpRace.advance
  cases hpos : p.pos with
  | starting =>
    dsimp only
    split
    · exact h
    · exact h.move hp (by simp [inTx]) rfl trivial
  | reading =>
    dsimp only
    split <;> exact h.move hp (by simp [inTx]) rfl trivial
  | saving topUp =>
    dsimp only
    split
    · exact h
    rename_i hl
    have hl' : s.locked = false := Bool.eq_false_iff.2 hl
    have hpend : s.topUp.status = .pending := by
      rcases p with ⟨server, completion, quotaPerUnit, pos⟩
      subst hpos
      simpa [careful, hp, hl'] using hc
    split
    · exact h.move hp (by simp [inTx]) rfl trivial
    split
    · exact h.save_tx hp hpos hl' hpend e.now
    · exact h.save_epay hp hpos hl' hpend e.now
  | crediting =>
    have hsaved : Saved p.pos := h.saved p (List.mem_of_getElem? hp)
    rw [hpos] at hsaved
    dsimp only
    split
    · exact h.move hp (by simp [inTx]) rfl trivial
    · exact h.move hp (by simp [hpos, inTx]) rfl hsaved
  | committing =>
    dsimp only
    split
    · exact h.move hp (by simp [inTx]) rfl trivial
    · exact h.commit hp hpos _
  | increasing =>
    dsimp only
    split
    · exact h.move hp (by simp [inTx]) rfl trivial
    · exact h.increase hp hpos _
  | ended => exact h

theorem Inv.step (h : s.Inv) (e : CompletionEvent) (hc : s.careful e = true) : (s.step e).Inv := by
  unfold TopUpRace.step
  split
  · exact h
  · rename_i p hp
    exact h.advance e hp hc

end Step

/-- In every interleaving in which each `Save` finds the order pending, it is credited at most
once. -/
theorem credited_at_most_once (topUp : TopUp) (started : List (ℕ × Completion × ℚ))
    (es : List CompletionEvent)
    (hes : Along TopUpRace.step (fun s e => s.careful e = true) (init topUp started) es) :
    (run TopUpRace.step (init topUp started) es).credits.length ≤ 1 := by
  have h := Along.run_inv (I := Inv) (fun s e hs he => hs.step e he) (Inv.init topUp started) hes
  have honce := h.once
  omega

def hostedOrder : TopUp := ⟨1, 10, 10, "WAFFO-1", "waffo", 0, 0, .pending⟩

def notifiedAndByHand : List (ℕ × Completion × ℚ) :=
  [(0, .tx rechargeHostedRule, 500000), (1, .tx manualCompleteRule, 500000)]

def stepsOf (procs : List ℕ) : List CompletionEvent := procs.map fun i => ⟨i, i + 7, false⟩

theorem one_after_the_other_credits_once : (run TopUpRace.step (init hostedOrder notifiedAndByHand)
      (stepsOf [0, 0, 0, 0, 0, 1, 1, 1, 1, 1])).credits.length ≤ 1 :=
  credited_at_most_once hostedOrder notifiedAndByHand (stepsOf [0, 0, 0, 0, 0, 1, 1, 1, 1, 1])
    (by decide +kernel)

/-- Both read the order as pending before either saves it. -/
theorem two_servers_credit_twice : (run TopUpRace.step (init hostedOrder notifiedAndByHand)
      (stepsOf [0, 1, 0, 1, 0, 0, 0, 1, 1, 1])).credits = [5000000, 5000000] := by
  decide +kernel

section Servers

variable {s : TopUpRace} {servers : Finset ℕ} {i : ℕ} {p : CompletionProc} {pos : CompletionAt}

/-- On each server one completion at a time is past `LockOrder`, and those that may still credit the
order are with the credits made no more than the servers. -/
structure Locked (servers : Finset ℕ) (s : TopUpRace) : Prop where
  known : ∀ p ∈ s.procs, p.server ∈ servers
  lock : Exclusive (fun p n => p.server = n ∧ p.pos.active = true) s.procs
  fresh : s.topUp.status = .pending → s.credits = [] ∧ s.debts = 0
  saved : ∀ p ∈ s.procs, Saved p.pos
  bound : s.credits.length + s.procs.countP (·.pos.claims) ≤ servers.card

theorem claims_le_servers (hknown : ∀ p ∈ s.procs, p.server ∈ servers)
    (hlock : Exclusive (fun p n => p.server = n ∧ p.pos.active = true) s.procs) :
    s.procs.countP (·.pos.claims) ≤ servers.card := by
  refine le_trans (List.countP_mono_left fun p _ hp => ?_)
    (hlock.countP_le fun p hp _ => hknown p hp)
  cases hpos : p.pos <;> simp_all [claims, active]

theorem Locked.move (h : Locked servers s) (hp : s.procs[i]? = some p)
    (hact : p.pos.active = true ∨ s.held p.server = false) {topUp : TopUp} {credits : List ℚ}
    (hfresh : topUp.status = .pending →
      s.topUp.status = .pending ∧ credits = s.credits ∧ pos.owing = false)
    (hsaved : Saved pos)
    (hbound : credits = [] ∨ credits.length + (if pos.claims then 1 else 0)
      ≤ s.credits.length + if p.pos.claims then 1 else 0) :
    Locked servers ⟨topUp, credits, (s.move i p pos).procs⟩ := by
  have hknown : ∀ q ∈ (s.move i p pos).procs, q.server ∈ servers := by
    intro q hq
    rcases List.mem_or_eq_of_mem_set hq with hold | rfl
    · exact h.known q hold
    · exact h.known p (List.mem_of_getElem? hp)
  have hlock : Exclusive (fun p n => p.server = n ∧ p.pos.active = true)
      (s.move i p pos).procs := by
    refine h.lock.set hp ?_
    rintro n ⟨rfl, -⟩
    refine hact.imp (fun ha => ⟨rfl, ha⟩) fun hfree q hq hqn => ?_
    have := List.any_eq_false.1 hfree q (List.mem_of_mem_eraseIdx hq)
    simp [hqn] at this
  refine ⟨hknown, hlock, fun hpend => ?_, saved_move h.saved hsaved, ?_⟩
  · obtain ⟨hbefore, rfl, how⟩ := hfresh hpend
    obtain ⟨hcredits, hdebts⟩ := h.fresh hbefore
    have hmove := debts_move hp rfl how
    rw [if_neg Bool.false_ne_true] at hmove
    exact ⟨hcredits, show (s.move i p pos).debts = 0 by omega⟩
  · rcases hbound with rfl | hbound
    · simpa using claims_le_servers hknown hlock
    · have hcount := countP_set_add { p with pos := pos } (fun q => q.pos.claims) hp
      have hle := h.bound
      change credits.length + (s.procs.set i { p with pos := pos }).countP _ ≤ _
      dsimp only at hcount
      omega

theorem Locked.step (h : Locked servers s) (e : CompletionEvent) : Locked servers (s.step e) := by
  unfold TopUpRace.step
  cases hp : s.procs[e.proc]? with
  | none => exact h
  | some p =>
    have hsaved := h.saved p (List.mem_of_getElem? hp)
    have hended (ha : p.pos.active = true) : Locked servers (s.move e.proc p .ended) :=
      h.move hp (.inl ha) (fun hpend => ⟨hpend, rfl, rfl⟩) trivial (.inr (by simp [claims]))
    dsimp only [advance]
    cases hpos : p.pos with
    | starting =>
      dsimp only
      split_ifs with hheld
      · exact h
      · exact h.move hp (.inr (by simpa using hheld)) (fun hpend => ⟨hpend, rfl, rfl⟩) trivial
          (.inr (by simp [claims]))
    | reading =>
      have ha : p.pos.active = true := by rw [hpos]; rfl
      dsimp only
      split_ifs with hbad
      · exact hended ha
      · refine h.move hp (.inl ha) (fun hpend => ⟨hpend, rfl, rfl⟩) trivial (.inl (h.fresh ?_).1)
        cases hc : p.completion <;> simp_all [Completion.accepts]
    | saving topUp =>
      have ha : p.pos.active = true := by rw [hpos]; rfl
      dsimp only
      split_ifs
      · exact h
      · exact hended ha
      · split
        · exact h.move hp (.inl ha) (fun hpend => ⟨hpend, rfl, rfl⟩) rfl
            (.inr (by simp [hpos, claims]))
        · exact h.move hp (.inl ha) (fun hpend => by cases hpend) trivial
            (.inr (by simp [hpos, claims, TopUpRace.move]))
    | crediting topUp =>
      have ha : p.pos.active = true := by rw [hpos]; rfl
      rw [hpos] at hsaved
      dsimp only
      split_ifs
      · exact hended ha
      · exact h.move hp (.inl ha) (fun hpend => ⟨hpend, rfl, rfl⟩) hsaved
          (.inr (by simp [hpos, claims]))
    | committing topUp =>
      have ha : p.pos.active = true := by rw [hpos]; rfl
      rw [hpos] at hsaved
      dsimp only
      split_ifs
      · exact hended ha
      · exact h.move hp (.inl ha) (fun hpend => by cases hpend.symm.trans hsaved) trivial
          (.inr (by simp [hpos, claims, TopUpRace.move, TopUpRace.save]))
    | increasing topUp =>
      have ha : p.pos.active = true := by rw [hpos]; rfl
      dsimp only
      split_ifs
      · exact hended ha
      · refine h.move hp (.inl ha) (fun hpend => ?_) trivial
          (.inr (by simp [hpos, claims, TopUpRace.move]))
        have howes := List.countP_eq_zero.1 (h.fresh hpend).2 p (List.mem_of_getElem? hp)
        rw [hpos] at howes
        exact absurd rfl howes
    | ended => exact h

/-- Whatever the interleaving of the completions of an order and whichever of their statements fail,
it is credited at most once for each server they run on. -/
theorem credits_le_servers (topUp : TopUp) (started : List (ℕ × Completion × ℚ))
    (es : List CompletionEvent) : (run TopUpRace.step (init topUp started) es).credits.length ≤
      (started.map (·.1)).toFinset.card := by
  have hinit : Locked (started.map (·.1)).toFinset (init topUp started) := by
    have h := Inv.init topUp started
    refine ⟨fun p hp => ?_, fun i j p q _ hp _ n hact => ?_, h.fresh, h.saved, ?_⟩
    · obtain ⟨c, hc, rfl⟩ := List.mem_map.1 hp
      exact List.mem_toFinset.2 (List.mem_map_of_mem hc)
    · obtain ⟨c, -, rfl⟩ := List.mem_map.1 (List.mem_of_getElem? hp)
      cases hact.2
    · simp [init, List.countP_map, Function.comp_def, claims]
  have h := run_inv (I := Locked _) (fun _ e hs => hs.step e) hinit es
  exact (Nat.le_add_right _ _).trans h.bound

end Servers

end TopUpRace

end AggreApi
